import Mathlib.Tactic.Linarith
import Mathlib.Tactic.Positivity
import Vda5050.Library.Replay
import Vda5050.VirtualAgvAdapter.TickLoop

/-!
# What the virtual AGV tells of itself

Everything the controller learns of the vehicle it learns by the calls of the adapter:
partial states, and partial states linked to action transitions. Followed along these
calls, the vehicle described to the controller is the actual one, and it is a sound one
after every single call.
-/

set_option autoImplicit false

namespace Vda5050

namespace VirtualAgvAdapter

/-! ## Telemetry -/

/-- `AgvPosition` -/
structure AgvPosition where
  x : Rat
  y : Rat
  theta : Rat
  mapId : String
  deriving DecidableEq, Repr

def VehiclePosition.agvPosition (position : VehiclePosition) : AgvPosition where
  x := position.x
  y := position.y
  theta := position.theta
  mapId := position.mapId

/-- The properties of a state that describe the vehicle. -/
structure Telemetry where
  driving : Bool
  velocity : Velocity
  agvPosition : AgvPosition
  lastNodeId : String
  batteryState : BatteryState
  paused : Bool
  loads : List Load
  deriving DecidableEq, Repr

def telemetry (adapter : VirtualAgvAdapter) : Telemetry where
  driving := adapter.vehicleState.isDriving
  velocity := adapter.vehicleState.velocity
  agvPosition := adapter.vehicleState.position.agvPosition
  lastNodeId := adapter.vehicleState.position.lastNodeId
  batteryState := adapter.vehicleState.batteryState
  paused := adapter.vehicleState.isPaused
  loads := adapter.vehicleState.currentLoad.toList

namespace Telemetry

/-- Take over the properties of a partial state. -/
def link (known : Telemetry) (linkedState : LinkedState) : Telemetry :=
  { known with
    loads := linkedState.loads.getD known.loads
    agvPosition := (linkedState.agvPosition.map (·.agvPosition)).getD known.agvPosition
    lastNodeId := linkedState.lastNodeId.getD known.lastNodeId
    paused := linkedState.paused.getD known.paused
    batteryState := linkedState.batteryState.getD known.batteryState }

/-- What is known after a call. -/
def update (known : Telemetry) : ControllerCall → Telemetry
  | .updateDrivingState driving => { known with driving }
  | .updateAgvVelocity velocity => { known with velocity }
  | .updateAgvPosition position => { known with agvPosition := position.agvPosition }
  | .updateBatteryState batteryState => { known with batteryState }
  | .updatePausedState paused => { known with paused }
  | .updatePartialState linkedState | .updateActionStatus _ (some _) linkedState _ _ =>
      known.link linkedState
  | .updateActionStatus _ none _ _ _ | .updateErrors _ _ | .edgeTraversed _ | .stopped _ => known

/-- The vehicle does not drive while it is paused or charging, and the reach agrees with
the charge, which is a percentage. -/
structure Sound (options : VirtualAgvAdapterOptions) (known : Telemetry) : Prop where
  unpaused : known.driving = true → known.paused = false
  uncharged : known.driving = true → known.batteryState.charging = false
  charge : 0 ≤ known.batteryState.batteryCharge ∧ known.batteryState.batteryCharge ≤ 100
  reach : known.batteryState.reach =
    some (getBatteryReach options known.batteryState.batteryCharge)

end Telemetry

/-- The calls from one state of the adapter to another tell the difference. -/
abbrev Tells (options : VirtualAgvAdapterOptions) (before after : VirtualAgvAdapter) : Prop :=
  Library.Tells Telemetry.update (Telemetry.Sound options) telemetry VirtualAgvAdapter.calls
    before after

/-- The options make sense for a battery. -/
structure HasBattery (options : VirtualAgvAdapterOptions) : Prop where
  batteryMaxReach : 0 < options.batteryMaxReach
  fullBatteryChargeTime : 0 < options.fullBatteryChargeTime
  initialBatteryCharge : 0 ≤ options.initialBatteryCharge ∧ options.initialBatteryCharge ≤ 100

variable {math : MathLibrary} {options : VirtualAgvAdapterOptions}
  {before after adapter : VirtualAgvAdapter}

/-- A call that says nothing of the vehicle. -/
theorem Tells.call (tells : Tells options before after) {call : ControllerCall}
    (silent : ∀ known : Telemetry, known.update call = known) :
    Tells options before (after.call call) :=
  tells.trans (.of_update rfl (silent _) fun sound => sound)

theorem Tells.updateErrors (tells : Tells options before after) (error : Error)
    (mode : AgvController.UpdateMode) :
    Tells options before (after.call (.updateErrors error mode)) :=
  tells.call fun _ => rfl

/-- An action that reaches a status without side effects. -/
theorem Tells.updateActionStatus (tells : Tells options before after) (context : ActionContext)
    (actionStatus : Option ActionStatus) (resultDescription errorDescription : Option String) :
    Tells options before (after.call
      (.updateActionStatus context actionStatus {} resultDescription errorDescription)) :=
  tells.call fun _ => by cases actionStatus <;> rfl

/-! ## Driving -/

private theorem startDriving_tells (vx vy : Rat) (unpaused : adapter.vehicleState.isPaused = false)
    (uncharged : adapter.vehicleState.batteryState.charging = false) :
    Tells options adapter (adapter.startDriving vx vy) := by
  refine ⟨[.updateDrivingState true, .updateAgvVelocity { vx, vy }], ?_, rfl, fun sound => ?_⟩
  · simp [startDriving, call, updateVehicle]
  · have starts : Telemetry.Sound options (adapter.telemetry.update (.updateDrivingState true)) :=
      ⟨fun _ => unpaused, fun _ => uncharged, sound.charge, sound.reach⟩
    exact ⟨sound, starts, ⟨starts.unpaused, starts.uncharged, sound.charge, sound.reach⟩⟩

private theorem stopDriving_tells (adapter : VirtualAgvAdapter) :
    Tells options adapter adapter.stopDriving := by
  refine ⟨[.updateDrivingState false, .updateAgvVelocity {}], ?_, rfl, fun sound => ?_⟩
  · simp [stopDriving, call, updateVehicle]
  · have stops : Telemetry.Sound options (adapter.telemetry.update (.updateDrivingState false)) :=
      ⟨fun driving => (by cases driving), fun driving => (by cases driving), sound.charge,
        sound.reach⟩
    exact ⟨sound, stops, ⟨stops.unpaused, stops.uncharged, sound.charge, sound.reach⟩⟩

private theorem standStill_tells (adapter : VirtualAgvAdapter) :
    Tells options adapter adapter.standStill := by
  unfold standStill
  split
  · exact stopDriving_tells adapter
  · exact .refl adapter

private theorem standStill_isDriving (adapter : VirtualAgvAdapter) :
    adapter.standStill.vehicleState.isDriving = false := by
  unfold standStill
  cases driving : adapter.vehicleState.isDriving with
  | true => rfl
  | false => exact driving

/-! ## Side effects of actions -/

/-- A partial state makes up for what a side effect has changed, after the calls made
by the way. -/
def TellsLinked (options : VirtualAgvAdapterOptions) (before : VirtualAgvAdapter)
    (result : VirtualAgvAdapter × LinkedState) : Prop :=
  ∃ told, Tells options before told ∧ result.1.calls = told.calls ∧
    told.telemetry.link result.2 = result.1.telemetry ∧
    (Telemetry.Sound options told.telemetry → Telemetry.Sound options result.1.telemetry)

/-- The partial state is handed over by a call. -/
theorem TellsLinked.call {result : VirtualAgvAdapter × LinkedState}
    (linked : TellsLinked options before result) {call : ControllerCall}
    (hands : ∀ known : Telemetry, known.update call = known.link result.2) :
    Tells options before (result.1.call call) := by
  obtain ⟨told, tells, calls, links, sound⟩ := linked
  refine tells.trans (.of_update ?_ ((hands _).trans links) sound)
  exact congrArg (· ++ [call]) calls

theorem TellsLinked.nothing (adapter : VirtualAgvAdapter) :
    TellsLinked options adapter (adapter, {}) :=
  ⟨adapter, .refl adapter, rfl, rfl, fun sound => sound⟩

private theorem loadAdded_tells (adapter : VirtualAgvAdapter) (inputs : TickInputs) :
    TellsLinked options adapter (adapter.loadAdded inputs) :=
  ⟨adapter, .refl adapter, rfl, rfl,
    fun sound => ⟨sound.unpaused, sound.uncharged, sound.charge, sound.reach⟩⟩

private theorem loadRemoved_tells (adapter : VirtualAgvAdapter) :
    TellsLinked options adapter adapter.loadRemoved :=
  ⟨adapter, .refl adapter, rfl, rfl,
    fun sound => ⟨sound.unpaused, sound.uncharged, sound.charge, sound.reach⟩⟩

private theorem initPosition_tells {action : Action} {result : VirtualAgvAdapter × LinkedState}
    (initialized : adapter.initPosition action = some result) :
    TellsLinked options adapter result := by
  simp only [initPosition, Option.bind_eq_bind, Option.bind_eq_some_iff,
    Option.some.injEq] at initialized
  obtain ⟨x, -, y, -, theta, -, mapId, -, lastNodeId, -, rfl⟩ := initialized
  exact ⟨adapter, .refl adapter, rfl, rfl,
    fun sound => ⟨sound.unpaused, sound.uncharged, sound.charge, sound.reach⟩⟩

private theorem startPause_tells (adapter : VirtualAgvAdapter) (ref : Nat) :
    TellsLinked options adapter (adapter.startPause ref) := by
  unfold startPause
  split
  · exact .nothing adapter
  · have stands := standStill_isDriving adapter
    refine ⟨adapter.standStill, standStill_tells adapter, rfl, rfl, fun sound => ?_⟩
    exact ⟨fun driving => absurd (stands.symm.trans driving) Bool.false_ne_true, sound.uncharged,
      sound.charge, sound.reach⟩

private theorem stopPause_tells (adapter : VirtualAgvAdapter) (ref : Nat) :
    TellsLinked options adapter (adapter.stopPause ref) := by
  unfold stopPause
  split
  · exact .nothing adapter
  · exact ⟨adapter, .refl adapter, rfl, rfl,
      fun sound => ⟨fun _ => rfl, sound.uncharged, sound.charge, sound.reach⟩⟩

private theorem startCharging_tells (adapter : VirtualAgvAdapter) :
    TellsLinked options adapter adapter.startCharging := by
  unfold startCharging
  split
  · exact .nothing adapter
  · have stands := standStill_isDriving adapter
    refine ⟨adapter.standStill, standStill_tells adapter, rfl, rfl, fun sound => ?_⟩
    exact ⟨sound.unpaused, fun driving => absurd (stands.symm.trans driving) Bool.false_ne_true,
      sound.charge, sound.reach⟩

private theorem stopCharging_tells (adapter : VirtualAgvAdapter) :
    TellsLinked options adapter adapter.stopCharging := by
  unfold stopCharging
  split
  · exact .nothing adapter
  · exact ⟨adapter, .refl adapter, rfl, rfl,
      fun sound => ⟨sound.unpaused, fun _ => rfl, sound.charge, sound.reach⟩⟩

private theorem finishedEffect_tells {inputs : TickInputs} {asm : ActionStateMachine}
    {result : VirtualAgvAdapter × LinkedState}
    (affected : adapter.finishedEffect inputs asm = some result) :
    TellsLinked options adapter result := by
  unfold finishedEffect at affected
  cases effect : asm.actionDefinition.transitions.finishedEffect <;>
    simp only [effect, Option.some.injEq] at affected
  case initPosition => exact initPosition_tells affected
  all_goals rw [← affected]
  case none => exact .nothing adapter
  case loadAdded => exact loadAdded_tells adapter inputs
  case loadRemoved => exact loadRemoved_tells adapter
  case startPause => exact startPause_tells adapter asm.ref
  case stopPause => exact stopPause_tells adapter asm.ref
  case startCharging => exact startCharging_tells adapter
  case stopCharging => exact stopCharging_tells adapter

/-! ## Transitions of actions -/

private theorem reach_tells (adapter : VirtualAgvAdapter) (asm : ActionStateMachine)
    (actionStatus : ActionStatus) : Tells options adapter (adapter.reach asm actionStatus) := by
  unfold reach
  dsimp only
  split <;> exact .of_same rfl rfl

private theorem transition_tells (adapter : VirtualAgvAdapter) (inputs : TickInputs)
    (asm : ActionStateMachine) (actionStatus : ActionStatus) :
    Tells options adapter (adapter.transition inputs asm actionStatus).1 := by
  have reached : Tells options adapter (adapter.reach asm actionStatus) :=
    reach_tells adapter asm actionStatus
  unfold transition
  cases actionStatus with
  | finished =>
      dsimp only
      cases affected : (adapter.reach asm .finished).finishedEffect inputs asm with
      | none => exact reached
      | some result => exact reached.trans ((finishedEffect_tells affected).call fun _ => rfl)
  | failed => exact reached.updateActionStatus _ _ _ _
  | initializing | paused | running | waiting => exact reached.updateActionStatus _ _ _ _

private theorem tickMachine_tells (math : MathLibrary) (adapter : VirtualAgvAdapter)
    (inputs : TickInputs) (realInterval : Rat) (asm : ActionStateMachine) :
    Tells options adapter (adapter.tickMachine math inputs realInterval asm).1 := by
  unfold tickMachine
  cases asm.tick math realInterval with
  | stays next => exact .of_same rfl rfl
  | typeError => exact .refl adapter
  | transitions next actionStatus =>
      cases actionStatus with
      | none =>
          have advanced : Tells options adapter
              (adapter.advanceMachine { next with actionStatus := none }) := .of_same rfl rfl
          exact advanced.updateActionStatus _ _ _ _
      | some actionStatus => exact transition_tells adapter inputs next actionStatus

/-! ## Handlers -/

private theorem executeAction_tells (adapter : VirtualAgvAdapter) (context : ActionContext) :
    Tells options adapter (adapter.executeAction context) := by
  unfold executeAction
  cases getActionDefinition context.action context.scope with
  | none => exact .refl adapter
  | some definition =>
      dsimp only
      split
      · unfold accept
        dsimp only
        split
        · exact (standStill_tells adapter).trans (.of_same rfl rfl)
        · exact .of_same rfl rfl
      · exact Tells.updateActionStatus (.refl adapter) _ _ _ _

private theorem updateMatching_tells (adapter : VirtualAgvAdapter)
    (update : ActionStateMachine → ActionStateMachine) (context : ActionContext) :
    Tells options adapter (adapter.updateMatching update context) := by
  unfold updateMatching
  split <;> exact .of_same rfl rfl

private theorem stopTraverse_tells (adapter : VirtualAgvAdapter) (context : StopTraverseContext) :
    Tells options adapter (adapter.stopTraverse context) := by
  have standing : Tells options adapter { adapter with traverseContext := none }.standStill :=
    .trans (.of_same rfl rfl) (standStill_tells _)
  refine Tells.call (standing.trans ?_) fun _ => rfl
  unfold stopPauseState
  split
  · exact .refl _
  · exact .of_update rfl rfl
      fun sound => ⟨fun _ => rfl, sound.uncharged, sound.charge, sound.reach⟩

/-! ## The battery -/

/-- A new charge is told together with the reach. -/
private theorem setBatteryCharge_tells {charge : Rat}
    (percentage : Telemetry.Sound options adapter.telemetry → 0 ≤ charge ∧ charge ≤ 100) :
    Tells options adapter (adapter.setBatteryCharge options charge).reportBatteryState :=
  .of_update rfl rfl fun sound => ⟨sound.unpaused, sound.uncharged, percentage sound, rfl⟩

private theorem chargeRate_nonneg (battery : HasBattery options) : 0 ≤ chargeRate options := by
  have positive := battery.fullBatteryChargeTime
  unfold chargeRate
  positivity

/-- Charging goes up to the full charge. -/
private theorem chargedBy_percentage (battery : HasBattery options)
    (sound : Telemetry.Sound options adapter.telemetry) {realInterval : Rat}
    (forward : 0 ≤ realInterval) :
    0 ≤ adapter.chargedBy options realInterval ∧
      adapter.chargedBy options realInterval ≤ 100 := by
  have charge : 0 ≤ adapter.vehicleState.batteryState.batteryCharge := sound.charge.1
  have charges := mul_nonneg (chargeRate_nonneg battery) forward
  refine ⟨le_min (by norm_num) ?_, min_le_left _ _⟩
  linarith

/-- Driving uses up the charge down to zero. -/
private theorem drivenCharge_percentage (battery : HasBattery options)
    (roots : ∀ x, 0 ≤ math.sqrt x)
    (sound : Telemetry.Sound options adapter.telemetry) (dx dy : Rat) :
    0 ≤ max 0 (adapter.vehicleState.batteryState.batteryCharge -
        math.sqrt (dx * dx + dy * dy) * 100 / options.batteryMaxReach) ∧
      max 0 (adapter.vehicleState.batteryState.batteryCharge -
        math.sqrt (dx * dx + dy * dy) * 100 / options.batteryMaxReach) ≤ 100 := by
  have full : adapter.vehicleState.batteryState.batteryCharge ≤ 100 := sound.charge.2
  have used : 0 ≤ math.sqrt (dx * dx + dy * dy) * 100 / options.batteryMaxReach := by
    have distance := roots (dx * dx + dy * dy)
    have positive := battery.batteryMaxReach
    positivity
  exact ⟨le_max_left _ _, max_le (by norm_num) (by linarith)⟩

private theorem advanceBatteryCharge_tells (battery : HasBattery options) {realInterval : Rat}
    (forward : 0 ≤ realInterval) :
    Tells options adapter (adapter.advanceBatteryCharge options realInterval) := by
  unfold advanceBatteryCharge
  split
  · exact .refl adapter
  · have charged : Tells options adapter ((adapter.setBatteryCharge options
        (adapter.chargedBy options realInterval)).reportBatteryState) :=
      setBatteryCharge_tells fun sound => chargedBy_percentage battery sound forward
    have cleared : ∀ {between}, Tells options adapter between →
        Tells options adapter (between.clearBatteryLowError options).1 := by
      intro between tells
      unfold clearBatteryLowError
      split
      · exact tells.trans (.of_same rfl rfl)
      · exact tells
    have reported : ∀ {between} error, Tells options adapter between →
        Tells options adapter (between.reportCharge options error) := by
      intro between error tells
      have repeats : ∀ {between}, Tells options adapter between →
          Tells options adapter between.reportBatteryState :=
        fun tells => tells.trans (.of_update rfl rfl fun sound => sound)
      unfold reportCharge
      split
      · cases error with
        | none => exact repeats tells
        | some error => exact repeats (tells.updateErrors error .remove)
      · exact tells
    dsimp only
    split
    · exact (reported _ (cleared charged)).trans
        ((stopCharging_tells _).call fun _ => rfl)
    · exact reported _ (cleared charged)

/-! ## Edge traversal -/

/-- The vehicle moves, and tells of its battery state and its position. -/
private theorem move_tells (battery : HasBattery options) (roots : ∀ x, 0 ≤ math.sqrt x)
    (x y theta dx dy : Rat) :
    Tells options adapter
      ((adapter.moveTo x y theta).updateBatteryState math options dx dy).reportPosition := by
  have charged : Tells options adapter (adapter.updateBatteryState math options dx dy) :=
    setBatteryCharge_tells fun sound => drivenCharge_percentage battery roots sound dx dy
  refine charged.trans (.of_update rfl rfl fun sound => ?_)
  exact ⟨sound.unpaused, sound.uncharged, sound.charge, sound.reach⟩

private theorem arrive_tells (battery : HasBattery options) (roots : ∀ x, 0 ≤ math.sqrt x)
    (context : TraverseEdgeContext) (position : NodePosition) :
    Tells options adapter (adapter.arrive math options context position) := by
  have moved : Tells options adapter _ := move_tells battery roots position.x position.y
    (position.theta.getD adapter.vehicleState.position.theta)
    (position.x - adapter.vehicleState.position.x) (position.y - adapter.vehicleState.position.y)
  have halted := moved.trans (stopDriving_tells _)
  exact Tells.call (halted.trans (.of_same rfl rfl)) fun _ => rfl

private theorem driveOn_tells (battery : HasBattery options) (roots : ∀ x, 0 ≤ math.sqrt x)
    (context : TraverseEdgeContext) (dx dy alpha : Rat) :
    Tells options adapter (adapter.driveOn math options context dx dy alpha) := by
  have moved : Tells options adapter _ := move_tells battery roots
    (adapter.vehicleState.position.x + dx) (adapter.vehicleState.position.y + dy)
    (context.edge.orientation.getD alpha) dx dy
  unfold driveOn
  dsimp only
  split
  · have halted := moved.trans (stopDriving_tells _)
    exact Tells.updateErrors (halted.trans (.of_same rfl rfl)) _ _
  · exact moved

private theorem advanceTraverse_tells (battery : HasBattery options) (roots : ∀ x, 0 ≤ math.sqrt x)
    (inputs : TickInputs) (realInterval : Rat) :
    Tells options adapter (adapter.advanceTraverse math options inputs realInterval).1 := by
  unfold advanceTraverse
  cases adapter.traverseContext with
  | none => exact .refl adapter
  | some context =>
      dsimp only
      split
      · exact .refl adapter
      · next moving =>
        rw [Bool.or_eq_true, not_or, Bool.not_eq_true, Bool.not_eq_true] at moving
        cases context.endNode.bind (·.nodePosition) with
        | none => exact .refl adapter
        | some position =>
            dsimp only
            split
            · split
              · exact .refl adapter
              · exact startDriving_tells _ _ moving.1 moving.2
            · split
              · exact arrive_tells battery roots context position
              · exact driveOn_tells battery roots context _ _ _

/-! ## Runs -/

/-- Time does not go backwards, and handed over actions have been found executable. -/
def IsOrderly : AdapterEvent → Prop
  | .onTick realInterval => 0 ≤ realInterval
  | .executeAction context => isActionExecutable context = true
  | _ => True

instance (event : AdapterEvent) : Decidable (IsOrderly event) :=
  match event with
  | .onTick realInterval => inferInstanceAs (Decidable (0 ≤ realInterval))
  | .executeAction context => inferInstanceAs (Decidable (isActionExecutable context = true))
  | .finishEdgeAction _ | .cancelAction _ | .traverseEdge _ | .stopTraverse _ | .proceed _ =>
      isTrue trivial

private theorem onTick_tells (adapter : VirtualAgvAdapter) (realInterval : Rat) :
    Tells options adapter (adapter.onTick realInterval) := .of_same rfl rfl

private theorem continueTick_tells {result : VirtualAgvAdapter × Bool} (realInterval : Rat)
    (phase : TickPhase) (tells : Tells options before result.1) :
    Tells options before (continueTick realInterval phase result) :=
  tells.trans (.of_same rfl rfl)

private theorem proceed_tells (battery : HasBattery options) (roots : ∀ x, 0 ≤ math.sqrt x)
    (inputs : TickInputs) {ongoing : OngoingTick} (forward : 0 ≤ ongoing.realInterval) :
    Tells options adapter (adapter.proceed math options inputs ongoing) := by
  unfold proceed
  dsimp only
  cases ongoing.phase with
  | machines index =>
      dsimp only
      cases adapter.actionStateMachines[index]? with
      | none => exact continueTick_tells _ _ (.refl adapter)
      | some asm => exact continueTick_tells _ _ (tickMachine_tells math adapter inputs _ asm)
  | traverse => exact continueTick_tells _ _ (advanceTraverse_tells battery roots inputs _)
  | charge => exact (advanceBatteryCharge_tells battery forward).trans (.of_same rfl rfl)

theorem step_tells (battery : HasBattery options) (roots : ∀ x, 0 ≤ math.sqrt x)
    {event : AdapterEvent} (stepped : step math options before event = some after)
    (forward : ∀ ongoing, before.ongoingTick = some ongoing → 0 ≤ ongoing.realInterval) :
    Tells options before after := by
  cases event with
  | executeAction context => exact Option.some.inj stepped ▸ executeAction_tells before context
  | finishEdgeAction context =>
      exact Option.some.inj stepped ▸ updateMatching_tells before _ context
  | cancelAction context => exact Option.some.inj stepped ▸ updateMatching_tells before _ context
  | traverseEdge context => exact Option.some.inj stepped ▸ .of_same rfl rfl
  | stopTraverse context => exact Option.some.inj stepped ▸ stopTraverse_tells before context
  | onTick realInterval =>
      simp only [step] at stepped
      split at stepped
      · cases stepped
      · exact Option.some.inj stepped ▸ onTick_tells before realInterval
  | proceed inputs =>
      simp only [step, Option.map_eq_some_iff] at stepped
      obtain ⟨ongoing, ticking, rfl⟩ := stepped
      exact proceed_tells battery roots inputs (forward ongoing ticking)

private theorem step_forward {event : AdapterEvent} (orderly : IsOrderly event)
    (stepped : step math options before event = some after)
    (forward : ∀ ongoing, before.ongoingTick = some ongoing → 0 ≤ ongoing.realInterval) :
    ∀ ongoing, after.ongoingTick = some ongoing → 0 ≤ ongoing.realInterval := by
  intro ongoing ticking
  by_cases starts : ∃ interval, event = .onTick interval
  · obtain ⟨interval, rfl⟩ := starts
    simp only [step] at stepped
    split at stepped
    · cases stepped
    · obtain rfl := Option.some.inj stepped
      obtain rfl := Option.some.inj ticking
      exact orderly
  · have handled : ∀ interval, event ≠ .onTick interval :=
      fun interval same => starts ⟨interval, same⟩
    cases earlier : before.ongoingTick with
    | none =>
        have none : ∀ ongoing, before.ongoingTick = some ongoing → ongoing.realInterval = 0 :=
          fun ongoing ticking => by rw [earlier] at ticking; cases ticking
        exact (realInterval_of_step stepped handled none ongoing ticking).ge
    | some past =>
        have same : ∀ ongoing, before.ongoingTick = some ongoing →
            ongoing.realInterval = past.realInterval :=
          fun ongoing ticking => by rw [earlier] at ticking; rw [Option.some.inj ticking]
        rw [realInterval_of_step stepped handled same ongoing ticking]
        exact forward past earlier

/-! ## Reports of action statuses -/

/-- The active actions have been found executable. -/
def ChecksActions (adapter : VirtualAgvAdapter) : Prop :=
  ∀ active ∈ adapter.activeActions, isActionExecutable active.context = true ∧
    getActionDefinition active.context.action active.context.scope = some active.definition

theorem ChecksActions.step (checks : ChecksActions before) {event : AdapterEvent}
    (orderly : IsOrderly event) (acted : ActionStep math options before event after) :
    ChecksActions after := by
  cases acted with
  | carries carried => exact fun active member => checks active (carried.activeActions ▸ member)
  | drives _ _ _ _ kept => exact fun active member => checks active (kept.activeActions ▸ member)
  | reaches _ _ _ _ _ reached =>
      exact fun active member => checks active (reached.sublist.subset member)
  | accepts handedOver defined executable accepted =>
      subst handedOver
      intro active member
      rw [accepted.activeActions, List.mem_append, List.mem_singleton] at member
      rcases member with earlier | rfl
      · exact checks active earlier
      · exact ⟨orderly, defined⟩

private theorem constraints_of_initPosition :
    ∀ definition ∈ actionDefinitions,
      definition.transitions.finishedEffect = .initPosition →
      definition.actionParameterConstraints =
        [("x", .number), ("y", .number), ("theta", .number), ("mapId", .string),
          ("lastNodeId", .string), ("lastNodeSequenceId", .optionalNumber)] := by
  decide

private theorem numberParameter_isSome {action : Action} {key : String}
    (holds : ParameterConstraint.number.holds (getParameter action key) = true) :
    ∃ value, numberParameter action key = some value := by
  unfold numberParameter
  cases given : getParameter action key with
  | none => simp [given, ParameterConstraint.holds, ParameterConstraint.check] at holds
  | some parameter =>
      cases parameter with
      | num value text => exact ⟨value, rfl⟩
      | null | bool | str | arr | obj =>
          simp [given, ParameterConstraint.holds, ParameterConstraint.check] at holds

private theorem stringParameter_isSome {action : Action} {key : String}
    (holds : ParameterConstraint.string.holds (getParameter action key) = true) :
    ∃ value, stringParameter action key = some value := by
  unfold stringParameter
  cases given : getParameter action key with
  | none => simp [given, ParameterConstraint.holds, ParameterConstraint.check] at holds
  | some parameter =>
      cases parameter with
      | str value => exact ⟨value, rfl⟩
      | null | bool | num | arr | obj =>
          simp [given, ParameterConstraint.holds, ParameterConstraint.check] at holds

/-- The parameters that the side effect of `initPosition` reads are there. -/
private theorem exists_initPosition {context : ActionContext} {definition : VirtualActionDefinition}
    (executable : isActionExecutable context = true)
    (defined : getActionDefinition context.action context.scope = some definition)
    (effect : definition.transitions.finishedEffect = .initPosition)
    (adapter : VirtualAgvAdapter) :
    ∃ result, adapter.initPosition context.action = some result := by
  have constraints :=
    constraints_of_initPosition definition (List.mem_of_find?_eq_some defined) effect
  simp only [isActionExecutable, defined, invalidParameters, constraints, List.isEmpty_iff,
    List.map_eq_nil_iff, List.filter_eq_nil_iff, List.mem_cons, List.not_mem_nil, or_false,
    Bool.not_eq_true', Bool.not_eq_false, forall_eq_or_imp, forall_eq] at executable
  obtain ⟨x, y, theta, mapId, lastNodeId, -⟩ := executable
  obtain ⟨x, isX⟩ := numberParameter_isSome x
  obtain ⟨y, isY⟩ := numberParameter_isSome y
  obtain ⟨theta, isTheta⟩ := numberParameter_isSome theta
  obtain ⟨mapId, isMapId⟩ := stringParameter_isSome mapId
  obtain ⟨lastNodeId, isLastNodeId⟩ := stringParameter_isSome lastNodeId
  simp [initPosition, isX, isY, isTheta, isMapId, isLastNodeId]

/-- A status that an action reaches is told to the controller. -/
def ActionObservation.IsTold (calls : List ControllerCall) : ActionObservation → Prop
  | .accepts _ _ => True
  | .reaches _ context actionStatus _ =>
      ∃ linkedState resultDescription errorDescription,
        .updateActionStatus context (some actionStatus) linkedState resultDescription
          errorDescription ∈ calls

theorem ActionObservation.IsTold.mono {calls later : List ControllerCall}
    {observation : ActionObservation} (told : observation.IsTold calls) (grown : calls <+: later) :
    observation.IsTold later := by
  cases observation with
  | accepts => trivial
  | reaches ref context actionStatus currentLoad =>
      obtain ⟨linkedState, resultDescription, errorDescription, member⟩ := told
      exact ⟨linkedState, resultDescription, errorDescription, grown.subset member⟩

private theorem exists_finishedEffect {asm : ActionStateMachine} (adapter : VirtualAgvAdapter)
    (inputs : TickInputs) (executable : isActionExecutable asm.actionContext = true)
    (defined : getActionDefinition asm.actionContext.action asm.actionContext.scope =
      some asm.actionDefinition) :
    ∃ result, adapter.finishedEffect inputs asm = some result := by
  unfold finishedEffect
  cases effect : asm.actionDefinition.transitions.finishedEffect <;>
    simp only [Option.some.injEq, exists_eq']
  case initPosition => exact exists_initPosition executable defined effect adapter

/-- The status reached in a transition is told at its end. -/
private theorem transition_isTold {asm : ActionStateMachine} (adapter : VirtualAgvAdapter)
    (inputs : TickInputs) (actionStatus : ActionStatus)
    (executable : isActionExecutable asm.actionContext = true)
    (defined : getActionDefinition asm.actionContext.action asm.actionContext.scope =
      some asm.actionDefinition) (currentLoad : Option Load) :
    (ActionObservation.reaches asm.ref asm.actionContext actionStatus currentLoad).IsTold
      (adapter.transition inputs asm actionStatus).1.calls := by
  unfold transition
  cases actionStatus with
  | finished =>
      obtain ⟨result, affected⟩ :=
        exists_finishedEffect (adapter.reach asm .finished) inputs executable defined
      simp only [affected]
      exact ⟨_, _, _, List.mem_concat_self⟩
  | failed | initializing | paused | running | waiting =>
      exact ⟨_, _, _, List.mem_concat_self⟩

/-- What is observed of the actions in a step is told in this step. -/
private theorem step_isTold (numbered : Numbered before) (checks : ChecksActions before)
    {event : AdapterEvent} (stepped : step math options before event = some after)
    (grown : before.calls <+: after.calls)
    (told : ∀ observation ∈ before.history, observation.IsTold before.calls) :
    ∀ observation ∈ after.history, observation.IsTold after.calls := by
  have kept : ∀ observation ∈ before.history, observation.IsTold after.calls :=
    fun observation member => (told observation member).mono grown
  cases step_actionStep numbered stepped with
  | carries carried => exact carried.history ▸ kept
  | drives _ _ _ _ same => exact same.history ▸ kept
  | accepts handedOver defined executable accepted =>
      intro observation member
      rw [accepted.history, List.mem_append, List.mem_singleton] at member
      rcases member with earlier | rfl
      · exact kept observation earlier
      · trivial
  | @reaches inputs ongoing index asm next actionStatus proceeds ticking phase found ticked
      reached =>
      intro observation member
      rw [reached.history, List.mem_append, List.mem_singleton] at member
      rcases member with earlier | rfl
      · exact kept observation earlier
      · subst proceeds
        have same : next.activeAction = asm.activeAction := by
          have about := asm.isAbout_tick math ongoing.realInterval
          rwa [ticked] at about
        have active : next.activeAction ∈ before.activeActions :=
          same ▸ List.mem_map_of_mem (List.mem_of_getElem? found)
        obtain ⟨executable, defined⟩ := checks _ active
        have result := transition_isTold before inputs actionStatus executable defined
          before.vehicleState.currentLoad
        simp only [step, ticking, Option.map_some, Option.some.injEq] at stepped
        rw [← stepped, ← same]
        simp only [proceed, phase, found, tickMachine, ticked]
        exact result

/-! ## Runs -/

theorem attached_sound (battery : HasBattery options) :
    Telemetry.Sound options (attached options).telemetry :=
  ⟨fun driving => (by cases driving), fun driving => (by cases driving),
    battery.initialBatteryCharge, rfl⟩

/-- What has been told of the vehicle since it has been attached. -/
structure Informs (options : VirtualAgvAdapterOptions) (adapter : VirtualAgvAdapter) : Prop where
  numbered : Numbered adapter
  tells : Tells options (attached options) adapter
  forward : ∀ ongoing, adapter.ongoingTick = some ongoing → 0 ≤ ongoing.realInterval
  checks : ChecksActions adapter
  told : ∀ observation ∈ adapter.history, observation.IsTold adapter.calls

theorem Informs.attached (options : VirtualAgvAdapterOptions) :
    Informs options (attached options) := by
  refine ⟨⟨List.nodup_nil, fun _ member => ?_⟩, .refl _, fun _ ticking => ?_, fun _ member => ?_,
    fun _ member => ?_⟩
  · cases member
  · cases ticking
  · cases member
  · cases member

theorem Informs.sound (informs : Informs options adapter) (battery : HasBattery options) :
    Telemetry.Sound options adapter.telemetry := by
  have along := informs.tells.allAlong rfl (attached_sound battery)
  exact informs.tells.replay_eq rfl ▸ along.finish

theorem Informs.step (informs : Informs options before) (battery : HasBattery options)
    (roots : ∀ x, 0 ≤ math.sqrt x) {event : AdapterEvent} (orderly : IsOrderly event)
    (stepped : step math options before event = some after) : Informs options after := by
  have tells := step_tells battery roots stepped informs.forward
  obtain ⟨calls, grown, -⟩ := id tells
  have grown : before.calls <+: after.calls := ⟨calls, grown.symm⟩
  exact ⟨informs.numbered.of_step stepped, informs.tells.trans tells,
    step_forward orderly stepped informs.forward,
    informs.checks.step orderly (step_actionStep informs.numbered stepped),
    step_isTold informs.numbered informs.checks stepped grown informs.told⟩

private theorem informs_of_run (battery : HasBattery options) (roots : ∀ x, 0 ≤ math.sqrt x)
    {events : List AdapterEvent}
    (run : AdapterRun math options (fun _ event => IsOrderly event) events adapter) :
    Informs options adapter :=
  Library.Run.invariant (Informs options) (.attached options)
    (fun _ informs orderly stepped => informs.step battery roots orderly stepped) run

/-- In every state of every run the controller has been told of the vehicle as it is, by
calls after each of which the vehicle told of was a sound one, and of every status an action
has reached. -/
theorem telemetry_told (battery : HasBattery options) (roots : ∀ x, 0 ≤ math.sqrt x)
    {events : List AdapterEvent}
    (run : AdapterRun math options (fun _ event => IsOrderly event) events adapter) :
    Library.replay Telemetry.update (attached options).telemetry adapter.calls =
        adapter.telemetry ∧
      Library.AllAlong Telemetry.update (Telemetry.Sound options) (attached options).telemetry
        adapter.calls ∧
      ∀ observation ∈ adapter.history, observation.IsTold adapter.calls := by
  have informs := informs_of_run battery roots run
  exact ⟨informs.tells.replay_eq rfl, informs.tells.allAlong rfl (attached_sound battery),
    informs.told⟩

/-- A vehicle that takes its position and drives for two ticks. -/
def positionedDrive : List AdapterEvent :=
  [.executeAction
      { action :=
          { actionId := "action"
            actionType := "initPosition"
            blockingType := .hard
            actionParameters :=
              [⟨"x", .num 1 "1"⟩, ⟨"y", .num 0 "0"⟩, ⟨"theta", .num 0 "0"⟩, ⟨"mapId", .str "local"⟩,
                ⟨"lastNodeId", .str "n"⟩] }
        scope := .instant }] ++ wholeTick 1 ++ .traverseEdge axisTraversal :: wholeTick 0 ++
    wholeTick 0

theorem telemetry_told_positionedDrive :
    ∃ adapter, AdapterRun axisMath {} (fun _ event => IsOrderly event) positionedDrive adapter ∧
      (Library.replay Telemetry.update (attached {}).telemetry adapter.calls).agvPosition.x =
        7 / 5 := by
  obtain ⟨adapter, run, passed⟩ := AdapterRun.exists_of_execute axisMath {}
    (fun _ event => IsOrderly event) positionedDrive
    (fun adapter => decide (adapter.vehicleState.position.x = 7 / 5)) (by decide +kernel)
  have told := telemetry_told (by constructor <;> norm_num) (fun x => by
    simp only [axisMath]
    exact Rat.natCast_nonneg) run
  exact ⟨adapter, run, by rw [told.1]; exact of_decide_eq_true passed⟩

end VirtualAgvAdapter

end Vda5050
