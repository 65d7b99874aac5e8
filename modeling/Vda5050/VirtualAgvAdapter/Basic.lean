import Vda5050.AgvController.Errors
import Vda5050.VirtualAgvAdapter.Actions

/-!
# The virtual AGV adapter

The state of the virtual vehicle and the operations of its adapter: driving,
charging, the side effects of actions, the handlers invoked by the controller,
and the parts of a tick.
-/

set_option autoImplicit false

namespace Vda5050

namespace VirtualAgvAdapter

/-! ## Vehicle state -/

structure VehiclePosition where
  x : Rat := 0
  y : Rat := 0
  theta : Rat := 0
  mapId : String := "local"
  lastNodeId : String := "0"
  deriving DecidableEq, Repr

structure Velocity where
  vx : Rat := 0
  vy : Rat := 0
  deriving DecidableEq, Repr

structure Load where
  loadId : String
  loadType : String := "EPAL"
  weight : Rat
  deriving DecidableEq, Repr

/-- The options `vehicleSpeed`, `vehicleSpeedDistribution` and
`vehicleTimeDistribution`, which are mutually exclusive. -/
inductive SpeedOption where
  | vehicleSpeed (speed : Rat)
  | vehicleSpeedDistribution
  | vehicleTimeDistribution
  deriving DecidableEq, Repr

/-- `VirtualAgvAdapterOptions` -/
structure VirtualAgvAdapterOptions where
  initialPosition : VehiclePosition := {}
  speedOption : SpeedOption := .vehicleSpeed 2
  batteryMaxReach : Rat := 28800
  initialBatteryCharge : Rat := 100
  fullBatteryChargeTime : Rat := 1
  lowBatteryChargeThreshold : Rat := 1
  tickRate : Rat := 5
  timeLapse : Rat := 1
  deriving DecidableEq, Repr

/-- `VirtualAgvState`, without its constant properties. -/
structure VirtualAgvState where
  isDriving : Bool := false
  isPaused : Bool := false
  position : VehiclePosition
  velocity : Velocity := {}
  batteryState : BatteryState
  currentLoad : Option Load := none
  deriving DecidableEq, Repr

/-- Properties of the partial states linked to action transitions. -/
structure LinkedState where
  loads : Option (List Load) := none
  agvPosition : Option VehiclePosition := none
  lastNodeId : Option String := none
  lastNodeSequenceId : Option Json := none
  paused : Option Bool := none
  batteryState : Option BatteryState := none
  deriving DecidableEq, Repr

/-- What the random number generator, the distribution functions, and the
estimation of order execution times yield. -/
structure TickInputs where
  sample : Rat := 0
  loadUuid : String := ""
  loadWeight : Rat := 10
  estimatedTimes : String := ""
  deriving DecidableEq, Repr

/-! ## The adapter -/

/-- Calls to the controller, and invocations of its callbacks. -/
inductive ControllerCall where
  | updateDrivingState (driving : Bool)
  | updateAgvPosition (position : VehiclePosition)
  | updateAgvVelocity (velocity : Velocity)
  | updateBatteryState (batteryState : BatteryState)
  | updateErrors (error : Error) (mode : AgvController.UpdateMode)
  | updatePausedState (paused : Bool)
  | updatePartialState (linkedState : LinkedState)
  | updateActionStatus (context : ActionContext) (actionStatus : Option ActionStatus)
      (linkedState : LinkedState) (resultDescription errorDescription : Option String)
  | edgeTraversed (context : TraverseEdgeContext)
  | stopped (context : StopTraverseContext)
  deriving DecidableEq, Repr

/-- What is observed of the actions. An action is accepted if it is handed over
and not refused. The load is the one before a status is reached. -/
inductive ActionObservation where
  | accepts (ref : Nat) (context : ActionContext)
  | reaches (ref : Nat) (context : ActionContext) (actionStatus : ActionStatus)
      (currentLoad : Option Load)
  deriving DecidableEq, Repr

/-- Where an ongoing tick stands: the next machine to be advanced, or the part
of the tick that comes after the machines. -/
inductive TickPhase where
  | machines (index : Nat)
  | traverse
  | charge
  deriving DecidableEq, Repr

structure OngoingTick where
  phase : TickPhase
  realInterval : Rat
  deriving DecidableEq, Repr

end VirtualAgvAdapter

open VirtualAgvAdapter in
/-- The fields of class `VirtualAgvAdapter`. `nextRef` is the identity of the
next action state machine. The history of the actions and the calls made to the
controller are records of what has happened. -/
structure VirtualAgvAdapter where
  vehicleState : VirtualAgvState
  actionStateMachines : List ActionStateMachine := []
  tick : Nat := 0
  traverseContext : Option TraverseEdgeContext := none
  batteryLowError : Option Error := none
  ongoingTick : Option OngoingTick := none
  nextRef : Nat := 0
  history : List ActionObservation := []
  calls : List ControllerCall := []
  deriving DecidableEq, Repr

namespace VirtualAgvAdapter

variable (math : MathLibrary) (options : VirtualAgvAdapterOptions) (adapter : VirtualAgvAdapter)

/-- `getBatteryReach` -/
def getBatteryReach (charge : Rat) : Rat := (options.batteryMaxReach * charge / 100).floor

/-- The state after `attach`. -/
def attached : VirtualAgvAdapter where
  vehicleState :=
    { position := options.initialPosition
      batteryState :=
        { batteryCharge := options.initialBatteryCharge
          charging := false
          reach := some (getBatteryReach options options.initialBatteryCharge) } }

/-! ## Updates -/

def observe (observation : ActionObservation) : VirtualAgvAdapter :=
  { adapter with history := adapter.history ++ [observation] }

def call (call : ControllerCall) : VirtualAgvAdapter :=
  { adapter with calls := adapter.calls ++ [call] }

def updateVehicle (update : VirtualAgvState → VirtualAgvState) : VirtualAgvAdapter :=
  { adapter with vehicleState := update adapter.vehicleState }

def updateMachines (update : List ActionStateMachine → List ActionStateMachine) :
    VirtualAgvAdapter :=
  { adapter with actionStateMachines := update adapter.actionStateMachines }

/-- Replace a machine by its next state. -/
def advanceMachine (asm : ActionStateMachine) : VirtualAgvAdapter :=
  adapter.updateMachines fun machines =>
    machines.map fun other => if other.ref = asm.ref then asm else other

/-- Change the first machine found for an action. -/
def updateMatching (update : ActionStateMachine → ActionStateMachine) (context : ActionContext) :
    VirtualAgvAdapter :=
  match adapter.actionStateMachines.find? (·.isMatch context.action.actionId context.scope) with
  | none => adapter
  | some asm => adapter.advanceMachine (update asm)

/-! ## Driving and charging -/

/-- `startDriving` -/
def startDriving (vx vy : Rat) : VirtualAgvAdapter :=
  ((adapter.updateVehicle fun vehicle =>
    { vehicle with isDriving := true, velocity := { vx, vy } }).call
      (.updateDrivingState true)).call (.updateAgvVelocity { vx, vy })

/-- `stopDriving` -/
def stopDriving : VirtualAgvAdapter :=
  ((adapter.updateVehicle fun vehicle =>
    { vehicle with isDriving := false, velocity := {} }).call
      (.updateDrivingState false)).call (.updateAgvVelocity {})

/-- `if (this._vehicleState.isDriving) this.stopDriving()` -/
def standStill : VirtualAgvAdapter :=
  if adapter.vehicleState.isDriving then adapter.stopDriving else adapter

/-- Set the charge, with the reach it allows. -/
def setBatteryCharge (charge : Rat) : VirtualAgvAdapter :=
  adapter.updateVehicle fun vehicle =>
    { vehicle with
      batteryState :=
        { vehicle.batteryState with
          batteryCharge := charge
          reach := some (getBatteryReach options charge) } }

def reportBatteryState : VirtualAgvAdapter :=
  adapter.call (.updateBatteryState adapter.vehicleState.batteryState)

/-- `updateBatteryState` -/
def updateBatteryState (dx dy : Rat) : VirtualAgvAdapter :=
  let dist := math.sqrt (dx * dx + dy * dy)
  let charge := adapter.vehicleState.batteryState.batteryCharge
  (adapter.setBatteryCharge options
    (max 0 (charge - dist * 100 / options.batteryMaxReach))).reportBatteryState

/-- `getTargetSpeed` -/
def getTargetSpeed (sample distance : Rat) (maxSpeed : Option Rat) : Rat :=
  match options.speedOption with
  | .vehicleSpeedDistribution => sample
  | .vehicleTimeDistribution => distance / sample
  | .vehicleSpeed speed =>
      match maxSpeed with
      | none => speed
      | some limit => min limit speed

/-! ## Side effects of actions -/

/-- `_loadAdded` -/
def loadAdded (inputs : TickInputs) : VirtualAgvAdapter × LinkedState :=
  let load : Load := { loadId := "RFID_" ++ inputs.loadUuid, weight := inputs.loadWeight }
  (adapter.updateVehicle fun vehicle => { vehicle with currentLoad := some load },
    { loads := some [load] })

/-- `_loadRemoved` -/
def loadRemoved : VirtualAgvAdapter × LinkedState :=
  (adapter.updateVehicle fun vehicle => { vehicle with currentLoad := none },
    { loads := some [] })

/-- Parameters of the executed action are checked to have these types. -/
def numberParameter (action : Action) (key : String) : Option Rat :=
  match getParameter action key with
  | some (.num value _) => some value
  | _ => none

def stringParameter (action : Action) (key : String) : Option String :=
  match getParameter action key with
  | some (.str value) => some value
  | _ => none

/-- `_initPosition`, which is `none` if a parameter is missing. -/
def initPosition (action : Action) : Option (VirtualAgvAdapter × LinkedState) := do
  let x ← numberParameter action "x"
  let y ← numberParameter action "y"
  let theta ← numberParameter action "theta"
  let mapId ← stringParameter action "mapId"
  let lastNodeId ← stringParameter action "lastNodeId"
  let position : VehiclePosition := { x, y, theta, mapId, lastNodeId }
  some (adapter.updateVehicle fun vehicle => { vehicle with position },
    { agvPosition := some position
      lastNodeId := some lastNodeId
      lastNodeSequenceId :=
        some ((getParameter action "lastNodeSequenceId").getD (.num 0 "0")) })

/-- `_startPause` of the action with the given identity. -/
def startPause (ref : Nat) : VirtualAgvAdapter × LinkedState :=
  if adapter.vehicleState.isPaused then (adapter, {})
  else
    ((adapter.standStill.updateVehicle fun vehicle =>
      { vehicle with isPaused := true }).updateMachines
        fun machines => machines.map fun asm => if asm.ref ≠ ref then asm.pause else asm,
      { paused := some true })

/-- `_stopPause` of the action with the given identity. -/
def stopPause (ref : Nat) : VirtualAgvAdapter × LinkedState :=
  if !adapter.vehicleState.isPaused then (adapter, {})
  else
    ((adapter.updateVehicle fun vehicle => { vehicle with isPaused := false }).updateMachines
        fun machines => machines.map fun asm => if asm.ref ≠ ref then asm.unpause else asm,
      { paused := some false })

/-- `_stopPause` without an action. -/
def stopPauseState : VirtualAgvAdapter :=
  if !adapter.vehicleState.isPaused then adapter
  else
    (adapter.updateVehicle fun vehicle => { vehicle with isPaused := false }).call
      (.updatePausedState false)

def setCharging (charging : Bool) : VirtualAgvAdapter :=
  adapter.updateVehicle fun vehicle =>
    { vehicle with batteryState := { vehicle.batteryState with charging := charging } }

/-- `_startCharging` -/
def startCharging : VirtualAgvAdapter × LinkedState :=
  if adapter.vehicleState.batteryState.charging then (adapter, {})
  else
    let started := adapter.standStill.setCharging true
    (started, { batteryState := some started.vehicleState.batteryState })

/-- `_stopCharging` -/
def stopCharging : VirtualAgvAdapter × LinkedState :=
  if !adapter.vehicleState.batteryState.charging then (adapter, {})
  else
    let stopped := adapter.setCharging false
    (stopped, { batteryState := some stopped.vehicleState.batteryState })

/-- The partial state linked to the status `FINISHED`, with its side effects. -/
def finishedEffect (inputs : TickInputs) (asm : ActionStateMachine) :
    Option (VirtualAgvAdapter × LinkedState) :=
  match asm.actionDefinition.transitions.finishedEffect with
  | .none => some (adapter, {})
  | .loadAdded => some (adapter.loadAdded inputs)
  | .loadRemoved => some adapter.loadRemoved
  | .initPosition => adapter.initPosition asm.actionContext.action
  | .startPause => some (adapter.startPause asm.ref)
  | .stopPause => some (adapter.stopPause asm.ref)
  | .startCharging => some adapter.startCharging
  | .stopCharging => some adapter.stopCharging

/-! ## Transitions of actions -/

/-- `_finalizeAction` -/
def finalizeAction (ref : Nat) : VirtualAgvAdapter :=
  adapter.updateMachines fun machines => machines.filter (·.ref ≠ ref)

/-- The first part of `_transition`: set the action status, and finalize an
action that has ended. -/
def reach (asm : ActionStateMachine) (actionStatus : ActionStatus) : VirtualAgvAdapter :=
  let observed := adapter.observe
    (.reaches asm.ref asm.actionContext actionStatus adapter.vehicleState.currentLoad)
  if actionStatus.isEnded then observed.finalizeAction asm.ref
  else observed.advanceMachine { asm with actionStatus := some actionStatus }

/-- `_transition`. The result is not reported if a side effect throws. -/
def transition (inputs : TickInputs) (asm : ActionStateMachine) (actionStatus : ActionStatus) :
    VirtualAgvAdapter × Bool :=
  let reached := adapter.reach asm actionStatus
  let transitions := asm.actionDefinition.transitions
  match actionStatus with
  | .finished =>
      match reached.finishedEffect inputs asm with
      | none => (reached, false)
      | some (affected, linkedState) =>
          (affected.call (.updateActionStatus asm.actionContext (some .finished) linkedState
            (some (transitions.resultDescription.getD inputs.estimatedTimes)) none), true)
  | .failed =>
      (reached.call (.updateActionStatus asm.actionContext (some .failed) {} none
        transitions.errorDescription), true)
  | .initializing | .paused | .running | .waiting =>
      (reached.call (.updateActionStatus asm.actionContext (some actionStatus) {} none none), true)

/-- `_transition` to a status that is undefined. -/
def transitionUndefined (asm : ActionStateMachine) : VirtualAgvAdapter :=
  (adapter.advanceMachine { asm with actionStatus := none }).call
    (.updateActionStatus asm.actionContext none {} none none)

/-- `tick` of a machine. The tick is aborted by a type error. -/
def tickMachine (inputs : TickInputs) (realInterval : Rat) (asm : ActionStateMachine) :
    VirtualAgvAdapter × Bool :=
  match asm.tick math realInterval with
  | .stays asm => (adapter.advanceMachine asm, true)
  | .transitions asm none => (adapter.transitionUndefined asm, true)
  | .transitions asm (some actionStatus) => adapter.transition inputs asm actionStatus
  | .typeError => (adapter, false)

/-! ## Handlers invoked by the controller -/

/-- `actionExecutable` yields no error description. -/
def canExecute (context : ActionContext) : Option ExecutableCheck → Bool
  | none => true
  | some .noLoad => adapter.vehicleState.currentLoad.isNone
  | some .hasLoad => adapter.vehicleState.currentLoad.isSome
  | some .notPaused => !adapter.vehicleState.isPaused
  | some .paused => adapter.vehicleState.isPaused
  | some .mayStartCharging =>
      !adapter.vehicleState.batteryState.charging &&
        !(context.activeOrderId.any (· ≠ "") && scopeKind context.scope = .instant)
  | some .charging => adapter.vehicleState.batteryState.charging

/-- The error description reported for a refused action. -/
def refusal (context : ActionContext) : ExecutableCheck → String
  | .noLoad => "load already picked"
  | .hasLoad => "no load to drop"
  | .notPaused => "already paused"
  | .paused => "not yet paused"
  | .mayStartCharging =>
      if adapter.vehicleState.batteryState.charging then "charging already in progress"
      else if scopeKind context.scope = .instant then "charging denied as order is in progress"
      else ""
  | .charging => "charging not in progress"

/-- The machine created for an accepted action. -/
def newMachine (context : ActionContext) (definition : VirtualActionDefinition) :
    ActionStateMachine where
  ref := adapter.nextRef
  actionContext := context
  actionDefinition := definition
  shouldPause :=
    !(context.action.actionType = "stopPause" || context.action.actionType = "startPause") &&
      adapter.vehicleState.isPaused

/-- The action is accepted. -/
def accept (context : ActionContext) (definition : VirtualActionDefinition) :
    VirtualAgvAdapter :=
  let standing := if context.stopDriving = some true then adapter.standStill else adapter
  let accepted := standing.observe (.accepts standing.nextRef context)
  { accepted with
    nextRef := accepted.nextRef + 1
    actionStateMachines :=
      accepted.actionStateMachines ++ [standing.newMachine context definition] }

/-- `executeAction`. Nothing happens if there is no definition, it throws. -/
def executeAction (context : ActionContext) : VirtualAgvAdapter :=
  match getActionDefinition context.action context.scope with
  | none => adapter
  | some definition =>
      if adapter.canExecute context definition.actionExecutable then
        adapter.accept context definition
      else
        adapter.call (.updateActionStatus context (some .failed) {} none
          (definition.actionExecutable.map (adapter.refusal context)))

/-- `finishEdgeAction` -/
def finishEdgeAction (context : ActionContext) : VirtualAgvAdapter :=
  adapter.updateMatching (·.terminate) context

/-- `cancelAction` -/
def cancelAction (context : ActionContext) : VirtualAgvAdapter :=
  adapter.updateMatching (·.cancel) context

/-- `traverseEdge` -/
def traverseEdge (context : TraverseEdgeContext) : VirtualAgvAdapter :=
  { adapter with traverseContext := some context }

/-- `stopTraverse` -/
def stopTraverse (context : StopTraverseContext) : VirtualAgvAdapter :=
  ({ adapter with traverseContext := none }.standStill.stopPauseState).call (.stopped context)

/-! ## Parts of a tick -/

def isBatteryLow : Bool :=
  adapter.vehicleState.batteryState.batteryCharge < options.lowBatteryChargeThreshold

/-- The vehicle moves by the given distances. -/
def moveTo (x y theta : Rat) : VirtualAgvAdapter :=
  adapter.updateVehicle fun vehicle =>
    { vehicle with position := { vehicle.position with x, y, theta } }

def reportPosition : VirtualAgvAdapter :=
  adapter.call (.updateAgvPosition adapter.vehicleState.position)

/-- The error reported when the vehicle stops driving. -/
def lowBatteryError (charge : Rat) : Error where
  errorType := "batteryLowError"
  errorLevel := .fatal
  errorDescription := some "stop driving due to low battery"
  errorReferences := some
    [{ referenceKey := "batteryState.batteryCharge"
       referenceValue := .str (math.numberText charge) }]

/-- The vehicle arrives at the end node. -/
def arrive (context : TraverseEdgeContext) (position : NodePosition) : VirtualAgvAdapter :=
  let vehicle := adapter.vehicleState.position
  let moved := (((adapter.moveTo position.x position.y
    (position.theta.getD vehicle.theta)).updateBatteryState math options
      (position.x - vehicle.x) (position.y - vehicle.y)).reportPosition).stopDriving
  { moved with traverseContext := none }.call (.edgeTraversed context)

/-- The vehicle drives on towards the end node. -/
def driveOn (context : TraverseEdgeContext) (dx dy alpha : Rat) : VirtualAgvAdapter :=
  let vehicle := adapter.vehicleState.position
  let moved := ((adapter.moveTo (vehicle.x + dx) (vehicle.y + dy)
    (context.edge.orientation.getD alpha)).updateBatteryState math options dx dy).reportPosition
  if adapter.isBatteryLow options then
    let error := lowBatteryError math moved.vehicleState.batteryState.batteryCharge
    { moved.stopDriving with batteryLowError := some error }.call (.updateErrors error .add)
  else moved

/-- `_advanceTraverse`, which throws if the end node has no position. -/
def advanceTraverse (inputs : TickInputs) (realInterval : Rat) : VirtualAgvAdapter × Bool :=
  let vehicle := adapter.vehicleState
  match adapter.traverseContext with
  | none => (adapter, true)
  | some context =>
      if vehicle.isPaused || vehicle.batteryState.charging then (adapter, true)
      else
        match context.endNode.bind (·.nodePosition) with
        | none => (adapter, false)
        | some position =>
            let tx := position.x - vehicle.position.x
            let ty := position.y - vehicle.position.y
            let alpha := math.atan2 ty tx
            if !vehicle.isDriving then
              if adapter.isBatteryLow options then (adapter, true)
              else
                let speed := getTargetSpeed options inputs.sample
                  (math.sqrt (tx ^ 2 + ty ^ 2)) context.edge.maxSpeed
                (adapter.startDriving (math.cos alpha * speed) (math.sin alpha * speed), true)
            else
              let dx := vehicle.velocity.vx * realInterval
              let dy := vehicle.velocity.vy * realInterval
              if tx ^ 2 + ty ^ 2 ≤ dx ^ 2 + dy ^ 2 then
                (adapter.arrive math options context position, true)
              else (adapter.driveOn math options context dx dy alpha, true)

/-- Charge increase per second. -/
def chargeRate : Rat := 100 / 3600 / options.fullBatteryChargeTime

/-- The number of ticks between reports of the charge, in steps of 1%. -/
def updateTicks : Int :=
  (1000 / chargeRate options / (1000 / options.tickRate * options.timeLapse)).ceil

/-- Forget the low battery error as soon as the charge is 10% above threshold. -/
def clearBatteryLowError : VirtualAgvAdapter × Option Error :=
  if options.lowBatteryChargeThreshold + 10 ≤ adapter.vehicleState.batteryState.batteryCharge then
    ({ adapter with batteryLowError := none }, adapter.batteryLowError)
  else (adapter, none)

/-- The charge after the given time. -/
def chargedBy (realInterval : Rat) : Rat :=
  min 100 (adapter.vehicleState.batteryState.batteryCharge + chargeRate options * realInterval)

/-- Remove the forgotten low battery error, and report the charge, on some ticks only. -/
def reportCharge (batteryLowError : Option Error) : VirtualAgvAdapter :=
  if (adapter.tick : Int) % updateTicks options = 0 then
    match batteryLowError with
    | none => adapter.reportBatteryState
    | some error => (adapter.call (.updateErrors error .remove)).reportBatteryState
  else adapter

/-- The battery is full. -/
def completeCharging : VirtualAgvAdapter :=
  let (stopped, linkedState) := adapter.stopCharging
  stopped.call (.updatePartialState linkedState)

/-- `_advanceBatteryCharge` -/
def advanceBatteryCharge (realInterval : Rat) : VirtualAgvAdapter :=
  if !adapter.vehicleState.batteryState.charging || adapter.vehicleState.isPaused then adapter
  else
    let newCharge := adapter.chargedBy options realInterval
    let charged := (adapter.setBatteryCharge options newCharge).reportBatteryState
    let (cleared, batteryLowError) := charged.clearBatteryLowError options
    let updated := cleared.reportCharge options batteryLowError
    if newCharge = 100 then updated.completeCharging else updated

end VirtualAgvAdapter

end Vda5050
