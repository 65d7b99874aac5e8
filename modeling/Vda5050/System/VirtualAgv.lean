import Vda5050.AgvController.VehicleReports
import Vda5050.VirtualAgvAdapter.ExclusiveDriving
import Vda5050.VirtualAgvAdapter.StandingActions

/-!
# One virtual vehicle with its controller

The virtual AGV adapter together with the AGV controller it reports to. The
controller never changes the driving state on its own, so that it knows the
driving state of the vehicle after every call of the adapter.
-/

set_option autoImplicit false

namespace Vda5050

open AgvController

/-! ## The driving state of the controller -/

def Config.driving (c : Config) : Bool := c.agv.currentState.driving

/-- The driving state is the one supplied last. -/
private theorem Config.perform_driving (c : Config) (event : Event) :
    (c.perform event).driving = event.suppliedState.driving.getD c.driving :=
  congrArg VehicleReport.driving (perform_vehicle c event).vehicle

/-! ## The vehicle -/

open VirtualAgvAdapter

/-- A partial state with the properties linked to an action transition. Loads
and the position are not part of the states considered here. -/
def VirtualAgvAdapter.LinkedState.describes (linkedState : LinkedState) (state : PartialState) :
    Bool :=
  state =
    { lastNodeId := linkedState.lastNodeId
      lastNodeSequenceId := state.lastNodeSequenceId
      paused := linkedState.paused
      batteryState := linkedState.batteryState }

/-- The event by which the controller performs a call of its adapter. It is
left open which updates are reported immediately. An action status that is
undefined is put into the action states. -/
def VirtualAgvAdapter.ControllerCall.performs : ControllerCall → Event → Bool
  | .updateDrivingState driving, .updatePartialState state reportImmediately =>
      state = { driving := some driving } && !reportImmediately
  | .updateAgvPosition _, .updatePartialState state _ => state = {}
  | .updateAgvVelocity _, .updatePartialState state _ => state = {}
  | .updateBatteryState batteryState, .updatePartialState state _ =>
      state = { batteryState := some batteryState }
  | .updateErrors error mode, .updateErrors reported reportedMode _ =>
      error = reported && mode = reportedMode
  | .updatePausedState paused, .updatePartialState state _ => state = { paused := some paused }
  | .updatePartialState linkedState, .updatePartialState state _ => linkedState.describes state
  | .updateActionStatus context (some actionStatus) linkedState resultDescription errorDescription,
    .updateActionStatus reported change =>
      context = reported && actionStatus = change.actionStatus &&
        resultDescription = change.resultDescription &&
        errorDescription = change.errorDescription && linkedState.describes change.linkedState
  | .updateActionStatus _ none _ _ _, .updatePartialState state _ =>
      state = { actionStates := state.actionStates }
  | .edgeTraversed context, .edgeTraversed reported => context = reported
  | .stopped context, .stopped reported => context = reported
  | _, _ => false

private theorem suppliedDriving_of_performs {call : ControllerCall} {event : Event}
    (performs : call.performs event) : event.suppliedState.driving = call.drivingState := by
  have described : ∀ {linkedState : LinkedState} {state : PartialState},
      linkedState.describes state → state.driving = none := by
    intro linkedState state describes
    rw [of_decide_eq_true describes]
  have supplied : ∀ {state expected : PartialState}, decide (state = expected) →
      state.driving = expected.driving := by
    intro state expected same
    rw [of_decide_eq_true same]
  unfold ControllerCall.performs at performs
  split at performs
  · exact supplied (Bool.and_eq_true_iff.mp performs).1
  · exact supplied performs
  · exact supplied performs
  · exact supplied performs
  · rfl
  · exact supplied performs
  · exact described performs
  · exact described (Bool.and_eq_true_iff.mp performs).2
  · exact supplied performs
  · rfl
  · rfl
  · cases performs

/-- A state as described. -/
def VirtualAgvAdapter.LinkedState.partialState (linkedState : LinkedState) : PartialState where
  lastNodeId := linkedState.lastNodeId
  paused := linkedState.paused
  batteryState := linkedState.batteryState

/-- One of the events by which the controller performs a call. -/
def VirtualAgvAdapter.ControllerCall.event : ControllerCall → Event
  | .updateDrivingState driving => .updatePartialState { driving := some driving } false
  | .updateAgvPosition _ | .updateAgvVelocity _ => .updatePartialState {} false
  | .updateBatteryState batteryState =>
      .updatePartialState { batteryState := some batteryState } false
  | .updateErrors error mode => .updateErrors error mode false
  | .updatePausedState paused => .updatePartialState { paused := some paused } true
  | .updatePartialState linkedState => .updatePartialState linkedState.partialState true
  | .updateActionStatus _ none _ _ _ => .updatePartialState {} true
  | .updateActionStatus context (some actionStatus) linkedState resultDescription
      errorDescription =>
      .updateActionStatus context
        { actionStatus, resultDescription, errorDescription
          linkedState := linkedState.partialState }
  | .edgeTraversed context => .edgeTraversed context
  | .stopped context => .stopped context

/-- The controller performs the calls of its adapter one after the other. -/
def Config.performAll (c : Config) (events : List Event) : Config := events.foldl Config.perform c

private theorem Config.performAll_driving {calls : List ControllerCall} {events : List Event}
    (c : Config)
    (performs : List.Forall₂ (fun call event => ControllerCall.performs call event) calls events) :
    (c.performAll events).driving = reportedDriving c.driving calls := by
  induction performs generalizing c with
  | nil => rfl
  | @cons call event calls events performs _ ih =>
      have first := Config.perform_driving c event
      rw [suppliedDriving_of_performs performs] at first
      have rest := ih (c.perform event)
      rw [first] at rest
      exact rest

structure VirtualAgv where
  controller : Config
  adapter : VirtualAgvAdapter

/-- The controller makes a step of its own, or the adapter does, with the
events by which the controller performs the calls made in the course of it. -/
inductive VirtualAgvEvent where
  | controller (event : Event)
  | adapter (event : AdapterEvent) (callbacks : List Event)

/-- Events other than the callbacks of the adapter. -/
def Event.isOwn : Event → Bool
  | .updateActionStatus .. | .edgeTraversed _ | .stopped _ | .drivingToNextNode _
  | .updatePartialState .. | .updateErrors .. => false
  | _ => true

namespace VirtualAgv

variable (math : MathLibrary) (options : VirtualAgvAdapterOptions)

/-- The state after `attach`, reported by `attached`. -/
def attached (limit : Nat) : VirtualAgv :=
  let adapter := VirtualAgvAdapter.attached options
  let vehicle := adapter.vehicleState
  { adapter
    controller := (Config.initial limit).updatePartialState
      { lastNodeId := some vehicle.position.lastNodeId
        batteryState := some vehicle.batteryState
        driving := some vehicle.isDriving
        operatingMode := some .automatic
        paused := some vehicle.isPaused
        safetyState := some { eStop := .none, fieldViolation := false } } false }

/-- The handlers of the adapter may be invoked at any time, and ticks occur. -/
def step (vehicle : VirtualAgv) : VirtualAgvEvent → Option VirtualAgv
  | .controller event =>
      if event.isOwn then
        (vehicle.controller.step event).map fun controller => { vehicle with controller }
      else none
  | .adapter event callbacks =>
      (vehicle.adapter.step math options event).bind fun adapter =>
        let calls := adapter.calls.drop vehicle.adapter.calls.length
        if List.Forall₂ (fun call event => ControllerCall.performs call event) calls callbacks then
          some { controller := vehicle.controller.performAll callbacks, adapter }
        else none

/-- The event, where calls of the adapter are performed as they are made. -/
def calling (vehicle : VirtualAgv) : VirtualAgvEvent → VirtualAgvEvent
  | .controller event => .controller event
  | .adapter event _ =>
      .adapter event <|
        match vehicle.adapter.step math options event with
        | none => []
        | some adapter =>
            (adapter.calls.drop vehicle.adapter.calls.length).map ControllerCall.event

/-- Execute events in order with the calls they lead to. -/
def follow (allowed : VirtualAgv → VirtualAgvEvent → Prop)
    [∀ vehicle event, Decidable (allowed vehicle event)] (vehicle : VirtualAgv) :
    List VirtualAgvEvent → Option VirtualAgv
  | [] => some vehicle
  | event :: events =>
      if allowed vehicle (vehicle.calling math options event) then
        (vehicle.step math options (vehicle.calling math options event)).bind fun next =>
          follow allowed next events
      else none

abbrev VirtualAgvRun (limit : Nat) : List VirtualAgvEvent → VirtualAgv → Prop :=
  Library.Run (step math options) (fun _ _ => True) (attached options limit)

end VirtualAgv

/-- The vehicle drives only while it is neither paused nor charging and
traverses an edge, and the controller knows whether it drives. -/
structure DrivesExclusively (vehicle : VirtualAgv) : Prop where
  unpaused : vehicle.adapter.vehicleState.isDriving = true →
    vehicle.adapter.vehicleState.isPaused = false
  uncharged : vehicle.adapter.vehicleState.isDriving = true →
    vehicle.adapter.vehicleState.batteryState.charging = false
  traverses : vehicle.adapter.vehicleState.isDriving = true →
    vehicle.adapter.traverseContext.isSome
  still : vehicle.adapter.vehicleState.isDriving = false →
    vehicle.adapter.vehicleState.velocity.vx = 0 ∧ vehicle.adapter.vehicleState.velocity.vy = 0
  reported : vehicle.controller.agv.currentState.driving = vehicle.adapter.vehicleState.isDriving

namespace VirtualAgv

variable {math : MathLibrary} {options : VirtualAgvAdapterOptions} {vehicle next : VirtualAgv}

/-- The controller knows what the adapter has reported. -/
structure Informed (vehicle : VirtualAgv) : Prop where
  exclusive : Exclusive vehicle.adapter
  driving : vehicle.controller.driving = reportedDriving false vehicle.adapter.calls

private theorem suppliedDriving_of_isOwn {event : Event} (own : event.isOwn) :
    event.suppliedState.driving = none := by
  cases event with
  | updateActionStatus | updatePartialState => cases own
  | _ => rfl

theorem Informed.step {event : VirtualAgvEvent} (informed : Informed vehicle)
    (stepped : vehicle.step math options event = some next) : Informed next := by
  cases event with
  | controller event =>
      simp only [VirtualAgv.step] at stepped
      split at stepped
      · next own =>
        obtain ⟨controller, performed, rfl⟩ := Option.map_eq_some_iff.mp stepped
        obtain ⟨-, rfl⟩ := Config.step_eq_some.mp performed
        have kept := Config.perform_driving vehicle.controller event
        rw [suppliedDriving_of_isOwn own] at kept
        exact ⟨informed.exclusive, kept.trans informed.driving⟩
      · cases stepped
  | adapter event callbacks =>
      simp only [VirtualAgv.step, Option.bind_eq_some_iff] at stepped
      obtain ⟨adapter, moved, stepped⟩ := stepped
      split at stepped
      · next performs =>
        obtain rfl := Option.some.inj stepped
        have conserves := step_conserves moved
        refine ⟨conserves.exclusive informed.exclusive, ?_⟩
        have known := Config.performAll_driving vehicle.controller performs
        rw [informed.driving, ← reportedDriving_append] at known
        obtain ⟨calls, grown⟩ := conserves.calls
        rw [← grown, List.drop_left, grown] at known
        exact known
      · cases stepped

private theorem informed_of_run {limit : Nat} {events : List VirtualAgvEvent}
    (run : VirtualAgvRun math options limit events vehicle) : Informed vehicle := by
  refine run.invariant Informed ?_ fun _ informed _ stepped => informed.step stepped
  exact ⟨exclusive_attached options, rfl⟩

theorem run_of_follow {allowed : VirtualAgv → VirtualAgvEvent → Prop}
    [∀ vehicle event, Decidable (allowed vehicle event)] {init finish : VirtualAgv}
    {past events : List VirtualAgvEvent}
    (run : Library.Run (step math options) allowed init past vehicle)
    (followed : follow math options allowed vehicle events = some finish) :
    ∃ all, Library.Run (step math options) allowed init all finish := by
  induction events generalizing vehicle past with
  | nil =>
      obtain rfl := Option.some.inj followed
      exact ⟨past, run⟩
  | cons event events ih =>
      simp only [follow] at followed
      split at followed
      · next permitted =>
        obtain ⟨next, stepped, rest⟩ := Option.bind_eq_some_iff.mp followed
        exact ih (run.advance permitted stepped) rest
      · cases followed

/-- A decidable check on the vehicle after some events yields a run that passes it. -/
theorem exists_run_of_follow {allowed : VirtualAgv → VirtualAgvEvent → Prop}
    [∀ vehicle event, Decidable (allowed vehicle event)] {init : VirtualAgv}
    {events : List VirtualAgvEvent} {check : VirtualAgv → Bool}
    (passed : (follow math options allowed init events).any check = true) :
    ∃ all vehicle, Library.Run (step math options) allowed init all vehicle ∧
      check vehicle = true := by
  cases followed : follow math options allowed init events with
  | none => simp [followed] at passed
  | some vehicle =>
      obtain ⟨all, run⟩ := run_of_follow .start followed
      exact ⟨all, vehicle, run, by simpa [followed] using passed⟩

/-- Driving is exclusive with pause and charging in every state reached,
between the parts of a tick, too. -/
theorem drivesExclusively_of_run {limit : Nat} {events : List VirtualAgvEvent}
    (run : VirtualAgvRun math options limit events vehicle) : DrivesExclusively vehicle := by
  obtain ⟨exclusive, driving⟩ := informed_of_run run
  constructor
  · exact exclusive.unpaused
  · exact exclusive.uncharged
  · exact exclusive.traverses
  · intro standing
    rw [exclusive.still standing]
    exact ⟨rfl, rfl⟩
  · exact driving.trans exclusive.reported

/-- An edge is handed over, and the first tick makes the vehicle drive. -/
theorem drivesExclusively_of_axisTraversal :
    ∃ vehicle, VirtualAgvRun axisMath {} 5
        [.adapter (.traverseEdge axisTraversal) [], .adapter (.onTick (1 / 5)) [],
          .adapter (.proceed {}) [],
          .adapter (.proceed {})
            [.updatePartialState { driving := some true } false, .updatePartialState {} true]]
        vehicle ∧
      vehicle.adapter.vehicleState.isDriving = true ∧ DrivesExclusively vehicle := by
  have passed : (Library.execute (step axisMath {}) (fun _ _ => True) (attached {} 5)
      [.adapter (.traverseEdge axisTraversal) [], .adapter (.onTick (1 / 5)) [],
        .adapter (.proceed {}) [],
        .adapter (.proceed {})
          [.updatePartialState { driving := some true } false, .updatePartialState {} true]]).any
      (fun vehicle => vehicle.adapter.vehicleState.isDriving) = true := by decide
  obtain ⟨vehicle, run, driving⟩ := Library.exists_run_of_execute passed
  exact ⟨vehicle, run, driving, drivesExclusively_of_run run⟩

end VirtualAgv

end Vda5050
