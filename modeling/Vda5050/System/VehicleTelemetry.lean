import Vda5050.AgvController.VehicleReports
import Vda5050.System.VirtualAgv
import Vda5050.VirtualAgvAdapter.Telemetry

/-!
# The vehicle in published States

What a virtual vehicle tells its controller is what the controller publishes: every
State describes a vehicle that could be, and the current one the vehicle that is.
-/

set_option autoImplicit false

namespace Vda5050

open VirtualAgvAdapter

/-- The part of the telemetry that the states considered here have. -/
def VirtualAgvAdapter.Telemetry.report (known : Telemetry) : VehicleReport where
  driving := known.driving
  paused := some known.paused
  batteryState := known.batteryState

/-- A State of a vehicle that drives neither paused nor charging, with a charge that is a
percentage and the reach for it. -/
structure State.DescribesVehicle (options : VirtualAgvAdapterOptions) (state : State) : Prop where
  unpaused : state.driving = true → state.paused = some false
  uncharged : state.driving = true → state.batteryState.charging = false
  charge : 0 ≤ state.batteryState.batteryCharge ∧ state.batteryState.batteryCharge ≤ 100
  reach : state.batteryState.reach =
    some (getBatteryReach options state.batteryState.batteryCharge)

private theorem State.describesVehicle_of_sound {options : VirtualAgvAdapterOptions} {state : State}
    {known : Telemetry} (sound : known.Sound options)
    (reported : state.vehicleReport = known.report) : state.DescribesVehicle options := by
  have driving : state.driving = known.driving := congrArg VehicleReport.driving reported
  have paused : state.paused = some known.paused := congrArg VehicleReport.paused reported
  have battery : state.batteryState = known.batteryState :=
    congrArg VehicleReport.batteryState reported
  constructor
  · rw [driving, paused]
    exact fun drives => congrArg some (sound.unpaused drives)
  · rw [driving, battery]
    exact sound.uncharged
  · rw [battery]
    exact sound.charge
  · rw [battery]
    exact sound.reach

/-! ## Calls of the adapter -/

private theorem supply_of_describes {linkedState : LinkedState} {state : PartialState}
    (describes : linkedState.describes state = true) (known : Telemetry) :
    known.report.supply state = (known.link linkedState).report := by
  rw [of_decide_eq_true describes]
  cases paused : linkedState.paused <;>
    simp [VehicleReport.supply, Telemetry.report, Telemetry.link, paused]

/-- The controller learns from a call what it tells. -/
theorem supply_of_performs {call : ControllerCall} {event : Event}
    (performs : call.performs event = true) (known : Telemetry) :
    known.report.supply event.suppliedState = (known.update call).report := by
  unfold ControllerCall.performs at performs
  split at performs
  · rw [Event.suppliedState, of_decide_eq_true (Bool.and_eq_true_iff.mp performs).1]
    rfl
  · rw [Event.suppliedState, of_decide_eq_true performs]
    rfl
  · rw [Event.suppliedState, of_decide_eq_true performs]
    rfl
  · rw [Event.suppliedState, of_decide_eq_true performs]
    rfl
  · rfl
  · rw [Event.suppliedState, of_decide_eq_true performs]
    rfl
  · exact supply_of_describes performs known
  · exact supply_of_describes (Bool.and_eq_true_iff.mp performs).2 known
  · rw [Event.suppliedState, of_decide_eq_true performs]
    rfl
  · rfl
  · rfl
  · cases performs

/-- The controller publishes what it knows, before and after it learns from an event. -/
theorem Config.perform_describesVehicle {options : VirtualAgvAdapterOptions} {c : Config}
    {event : Event} {known after : Telemetry} (reported : c.vehicleReport = known.report)
    (supplies : known.report.supply event.suppliedState = after.report)
    (sound : known.Sound options) (soundAfter : after.Sound options)
    (published : ∀ state ∈ c.published, state.DescribesVehicle options) :
    (c.perform event).vehicleReport = after.report ∧
      ∀ state ∈ (c.perform event).published, state.DescribesVehicle options := by
  have step := perform_vehicle c event
  rw [← reported] at supplies
  refine ⟨step.vehicle.trans supplies, fun state member => ?_⟩
  rcases step.published state member with earlier | before | later
  · exact published state earlier
  · exact State.describesVehicle_of_sound sound (before.trans reported)
  · exact State.describesVehicle_of_sound soundAfter (later.trans supplies)

/-- Performing the calls of the adapter publishes States of the vehicles told of. -/
private theorem Config.performAll_vehicle {options : VirtualAgvAdapterOptions}
    {calls : List ControllerCall} {events : List Event} (c : Config) (known : Telemetry)
    (performs : List.Forall₂ (fun call event => ControllerCall.performs call event) calls events)
    (reported : c.vehicleReport = known.report)
    (along : Library.AllAlong Telemetry.update (Telemetry.Sound options) known calls)
    (published : ∀ state ∈ c.published, state.DescribesVehicle options) :
    (c.performAll events).vehicleReport =
        (Library.replay Telemetry.update known calls).report ∧
      ∀ state ∈ (c.performAll events).published, state.DescribesVehicle options := by
  induction performs generalizing c known with
  | nil => exact ⟨reported, published⟩
  | @cons call event calls events performs _ ih =>
      obtain ⟨reported, published⟩ := perform_describesVehicle reported
        (supply_of_performs performs known) along.1 along.2.start published
      exact ih (c.perform event) (known.update call) reported along.2 published

/-! ## Runs -/

/-- Time does not go backwards, and actions handed over have been found executable. -/
def VirtualAgvEvent.IsOrderly : VirtualAgvEvent → Prop
  | .controller _ => True
  | .adapter event _ => VirtualAgvAdapter.IsOrderly event

instance (event : VirtualAgvEvent) : Decidable event.IsOrderly :=
  match event with
  | .controller _ => isTrue trivial
  | .adapter event _ => inferInstanceAs (Decidable (VirtualAgvAdapter.IsOrderly event))

namespace VirtualAgv

variable {math : MathLibrary} {options : VirtualAgvAdapterOptions} {vehicle next : VirtualAgv}

/-- The controller knows the vehicle, and has published what it knew. -/
structure Reports (options : VirtualAgvAdapterOptions) (vehicle : VirtualAgv) : Prop where
  informs : Informs options vehicle.adapter
  reported : vehicle.controller.vehicleReport = vehicle.adapter.telemetry.report
  published : ∀ state ∈ vehicle.controller.published, state.DescribesVehicle options

theorem suppliedState_of_isOwn {event : Event} (own : event.isOwn) : event.suppliedState = {} := by
  cases event with
  | updateActionStatus | updatePartialState => cases own
  | _ => rfl

theorem Reports.attached (options : VirtualAgvAdapterOptions) (limit : Nat) :
    Reports options (attached options limit) := by
  refine ⟨.attached options, rfl, fun state member => ?_⟩
  cases member

theorem Reports.step (reports : Reports options vehicle) (battery : HasBattery options)
    (roots : ∀ x, 0 ≤ math.sqrt x) {event : VirtualAgvEvent} (orderly : event.IsOrderly)
    (stepped : vehicle.step math options event = some next) : Reports options next := by
  have sound := reports.informs.sound battery
  cases event with
  | controller event =>
      simp only [VirtualAgv.step] at stepped
      split at stepped
      · next own =>
        obtain ⟨controller, performed, rfl⟩ := Option.map_eq_some_iff.mp stepped
        obtain ⟨-, rfl⟩ := Config.step_eq_some.mp performed
        have supplies : vehicle.adapter.telemetry.report.supply event.suppliedState =
            vehicle.adapter.telemetry.report := by
          rw [suppliedState_of_isOwn own]
          exact VehicleReport.supply_empty _
        obtain ⟨reported, published⟩ := Config.perform_describesVehicle reports.reported supplies
          sound sound reports.published
        exact ⟨reports.informs, reported, published⟩
      · cases stepped
  | adapter event callbacks =>
      simp only [VirtualAgv.step, Option.bind_eq_some_iff] at stepped
      obtain ⟨adapter, moved, stepped⟩ := stepped
      split at stepped
      · next performs =>
        obtain rfl := Option.some.inj stepped
        have tells := step_tells battery roots moved reports.informs.forward
        obtain ⟨calls, grown, leads, along⟩ := tells
        have made : adapter.calls.drop vehicle.adapter.calls.length = calls := by
          rw [grown, List.drop_left]
        rw [made] at performs
        have result := Config.performAll_vehicle vehicle.controller vehicle.adapter.telemetry
          performs reports.reported (along sound) reports.published
        rw [leads] at result
        exact ⟨reports.informs.step battery roots orderly moved, result.1, result.2⟩
      · cases stepped

/-- In every run the current state is that of the vehicle, and every State published describes
a vehicle that drives neither paused nor charging, with a charge and a reach that agree. -/
theorem published_describesVehicle (battery : HasBattery options) (roots : ∀ x, 0 ≤ math.sqrt x)
    {limit : Nat} {events : List VirtualAgvEvent}
    (run : Library.Run (VirtualAgv.step math options) (fun _ event => event.IsOrderly)
      (VirtualAgv.attached options limit) events vehicle) :
    vehicle.controller.vehicleReport = vehicle.adapter.telemetry.report ∧
      ∀ state ∈ vehicle.controller.published, state.DescribesVehicle options := by
  have reports := run.invariant (Reports options) (.attached options limit)
    fun _ reports orderly stepped => reports.step battery roots orderly stepped
  exact ⟨reports.reported, reports.published⟩

/-- The vehicle drives, and is paused. -/
def pausedDrive : List VirtualAgvEvent :=
  ((.traverseEdge axisTraversal :: wholeTick 0) ++
    .executeAction
      { action := { actionId := "pause", actionType := "startPause", blockingType := .hard }
        scope := .instant } :: wholeTick 1).map fun event => .adapter event []

theorem published_describesVehicle_pausedDrive :
    ∃ (events : List VirtualAgvEvent) (vehicle : VirtualAgv),
      Library.Run (VirtualAgv.step axisMath {}) (fun _ event => event.IsOrderly)
        (VirtualAgv.attached {} 5) events vehicle ∧
      (∃ state ∈ vehicle.controller.published, state.paused = some true) ∧
      ∀ state ∈ vehicle.controller.published, state.DescribesVehicle {} := by
  have follows : (follow axisMath {} (fun _ event => event.IsOrderly) (VirtualAgv.attached {} 5)
      pausedDrive).any (fun vehicle =>
        vehicle.controller.published.any (·.paused = some true)) = true := by
    decide +kernel
  obtain ⟨events, vehicle, run, passed⟩ := exists_run_of_follow follows
  have described := published_describesVehicle (by constructor <;> norm_num) (fun x => by
    simp only [axisMath]
    exact Rat.natCast_nonneg) run
  refine ⟨events, vehicle, run, ?_, described.2⟩
  simpa using passed

end VirtualAgv

end Vda5050
