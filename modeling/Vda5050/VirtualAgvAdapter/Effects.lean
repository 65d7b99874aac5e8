import Vda5050.VirtualAgvAdapter.Machine

/-!
# What a step of the virtual AGV adapter can do

Most operations leave the machines, the pause flag and the load alone and never
start driving. Every step is one of a few changes, followed by such operations.
-/

set_option autoImplicit false

namespace Vda5050

namespace VirtualAgvAdapter

/-! ## Quiet operations -/

/-- Neither the machines nor what their execution depends on has changed, and
the vehicle does not drive unless it did before. -/
structure Quiet (before after : VirtualAgvAdapter) : Prop where
  machines : after.actionStateMachines = before.actionStateMachines
  nextRef : after.nextRef = before.nextRef
  history : after.history = before.history
  isPaused : after.vehicleState.isPaused = before.vehicleState.isPaused
  currentLoad : after.vehicleState.currentLoad = before.vehicleState.currentLoad
  isDriving : after.vehicleState.isDriving = true → before.vehicleState.isDriving = true

namespace Quiet

variable {before between after adapter : VirtualAgvAdapter}

protected theorem refl : Quiet adapter adapter := ⟨rfl, rfl, rfl, rfl, rfl, id⟩

protected theorem trans (first : Quiet before between) (second : Quiet between after) :
    Quiet before after where
  machines := second.machines.trans first.machines
  nextRef := second.nextRef.trans first.nextRef
  history := second.history.trans first.history
  isPaused := second.isPaused.trans first.isPaused
  currentLoad := second.currentLoad.trans first.currentLoad
  isDriving := first.isDriving ∘ second.isDriving

theorem ongoingTick (moved : Quiet before after) (ongoing : Option OngoingTick) :
    Quiet before { after with ongoingTick := ongoing } :=
  moved.trans ⟨rfl, rfl, rfl, rfl, rfl, id⟩

theorem call (moved : Quiet before after) (call : ControllerCall) :
    Quiet before (after.call call) :=
  moved.trans ⟨rfl, rfl, rfl, rfl, rfl, id⟩

theorem stopDriving (moved : Quiet before after) : Quiet before after.stopDriving :=
  moved.trans ⟨rfl, rfl, rfl, rfl, rfl, by simp [VirtualAgvAdapter.stopDriving, updateVehicle,
    VirtualAgvAdapter.call]⟩

theorem standStill (moved : Quiet before after) : Quiet before after.standStill := by
  unfold VirtualAgvAdapter.standStill
  split
  · exact moved.stopDriving
  · exact moved

/-- An accepted action may ask for a standing vehicle. -/
theorem standStillIf (moved : Quiet before after) (stops : Prop) [Decidable stops] :
    Quiet before (if stops then after.standStill else after) := by
  split
  · exact moved.standStill
  · exact moved

theorem setBatteryCharge (options : VirtualAgvAdapterOptions) (moved : Quiet before after)
    (charge : Rat) : Quiet before (after.setBatteryCharge options charge) :=
  moved.trans ⟨rfl, rfl, rfl, rfl, rfl, id⟩

theorem reportBatteryState (moved : Quiet before after) :
    Quiet before after.reportBatteryState :=
  moved.call _

theorem updateBatteryState (math : MathLibrary) (options : VirtualAgvAdapterOptions)
    (moved : Quiet before after) (dx dy : Rat) :
    Quiet before (after.updateBatteryState math options dx dy) :=
  (moved.setBatteryCharge options _).reportBatteryState

theorem setCharging (moved : Quiet before after) (charging : Bool) :
    Quiet before (after.setCharging charging) :=
  moved.trans ⟨rfl, rfl, rfl, rfl, rfl, id⟩

theorem startCharging (moved : Quiet before after) : Quiet before after.startCharging.1 := by
  unfold VirtualAgvAdapter.startCharging
  split
  · exact moved
  · exact moved.standStill.setCharging true

theorem stopCharging (moved : Quiet before after) : Quiet before after.stopCharging.1 := by
  unfold VirtualAgvAdapter.stopCharging
  split
  · exact moved
  · exact moved.setCharging false

theorem initPosition {action : Action} {linkedState : LinkedState}
    (initialized : adapter.initPosition action = some (after, linkedState)) :
    Quiet adapter after := by
  simp only [VirtualAgvAdapter.initPosition, Option.bind_eq_bind, Option.bind_eq_some_iff,
    Option.some.injEq, Prod.mk.injEq] at initialized
  obtain ⟨_, _, _, _, _, _, _, _, _, _, rfl, _⟩ := initialized
  exact ⟨rfl, rfl, rfl, rfl, rfl, id⟩

theorem moveTo (moved : Quiet before after) (x y theta : Rat) :
    Quiet before (after.moveTo x y theta) :=
  moved.trans ⟨rfl, rfl, rfl, rfl, rfl, id⟩

theorem reportPosition (moved : Quiet before after) : Quiet before after.reportPosition :=
  moved.call _

theorem arrive (math : MathLibrary) (options : VirtualAgvAdapterOptions)
    (moved : Quiet before after) (context : TraverseEdgeContext) (position : NodePosition) :
    Quiet before (after.arrive math options context position) := by
  have stopped := (((moved.moveTo position.x position.y
    (position.theta.getD after.vehicleState.position.theta)).updateBatteryState math options
      (position.x - after.vehicleState.position.x)
      (position.y - after.vehicleState.position.y)).reportPosition).stopDriving
  exact stopped.trans ⟨rfl, rfl, rfl, rfl, rfl, id⟩

theorem driveOn (math : MathLibrary) (options : VirtualAgvAdapterOptions)
    (moved : Quiet before after) (context : TraverseEdgeContext) (dx dy alpha : Rat) :
    Quiet before (after.driveOn math options context dx dy alpha) := by
  have driven := ((moved.moveTo (after.vehicleState.position.x + dx)
    (after.vehicleState.position.y + dy)
    (context.edge.orientation.getD alpha)).updateBatteryState math options dx dy).reportPosition
  unfold VirtualAgvAdapter.driveOn
  dsimp only
  split
  · exact driven.stopDriving.trans ⟨rfl, rfl, rfl, rfl, rfl, id⟩
  · exact driven

theorem clearBatteryLowError (options : VirtualAgvAdapterOptions) (moved : Quiet before after) :
    Quiet before (after.clearBatteryLowError options).1 := by
  unfold VirtualAgvAdapter.clearBatteryLowError
  split
  · exact moved.trans ⟨rfl, rfl, rfl, rfl, rfl, id⟩
  · exact moved

theorem reportCharge (options : VirtualAgvAdapterOptions) (moved : Quiet before after)
    (batteryLowError : Option Error) :
    Quiet before (after.reportCharge options batteryLowError) := by
  unfold VirtualAgvAdapter.reportCharge
  split
  · cases batteryLowError with
    | none => exact moved.reportBatteryState
    | some error => exact (moved.call _).reportBatteryState
  · exact moved

theorem advanceBatteryCharge (options : VirtualAgvAdapterOptions) (moved : Quiet before after)
    (realInterval : Rat) :
    Quiet before (after.advanceBatteryCharge options realInterval) := by
  unfold VirtualAgvAdapter.advanceBatteryCharge
  split
  · exact moved
  · have charged := (moved.setBatteryCharge options
      (after.chargedBy options realInterval)).reportBatteryState
    have updated := fun error =>
      (charged.clearBatteryLowError options).reportCharge options error
    dsimp only
    split
    · exact (updated _).stopCharging.call _
    · exact updated _

end Quiet

/-! ## Changes -/

/-- The vehicle starts driving when its edge traversal is advanced, unless it
drives already. -/
def isReadyToDrive (options : VirtualAgvAdapterOptions) (adapter : VirtualAgvAdapter) : Bool :=
  (adapter.traverseContext.bind fun context =>
    context.endNode.bind (·.nodePosition)).isSome &&
    !adapter.vehicleState.isPaused && !adapter.vehicleState.batteryState.charging &&
    !adapter.isBatteryLow options

/-- What an event does, apart from quiet operations. -/
inductive Change (math : MathLibrary) (options : VirtualAgvAdapterOptions)
    (adapter : VirtualAgvAdapter) : AdapterEvent → VirtualAgvAdapter → Prop where
  | nothing (event : AdapterEvent) : Change math options adapter event adapter
  | accepts {context : ActionContext} {definition : VirtualActionDefinition} :
      getActionDefinition context.action context.scope = some definition →
      adapter.canExecute context definition.actionExecutable = true →
      Change math options adapter (.executeAction context) (adapter.accept context definition)
  | terminates {context : ActionContext} {asm : ActionStateMachine} :
      asm ∈ adapter.actionStateMachines →
      Change math options adapter (.finishEdgeAction context)
        (adapter.advanceMachine asm.terminate)
  | cancels {context : ActionContext} {asm : ActionStateMachine} :
      asm ∈ adapter.actionStateMachines →
      Change math options adapter (.cancelAction context) (adapter.advanceMachine asm.cancel)
  | unpauses {context : StopTraverseContext} :
      Change math options adapter (.stopTraverse context)
        { adapter with traverseContext := none }.standStill.stopPauseState
  | drives {inputs : TickInputs} {ongoing : OngoingTick} (vx vy : Rat) :
      adapter.ongoingTick = some ongoing → ongoing.phase = .traverse →
      adapter.isReadyToDrive options = true →
      Change math options adapter (.proceed inputs) (adapter.startDriving vx vy)
  | ticks {inputs : TickInputs} {ongoing : OngoingTick} {index : Nat}
      {asm : ActionStateMachine} :
      adapter.ongoingTick = some ongoing → ongoing.phase = .machines index →
      adapter.actionStateMachines[index]? = some asm →
      Change math options adapter (.proceed inputs)
        (adapter.tickMachine math inputs ongoing.realInterval asm).1

variable {math : MathLibrary} {options : VirtualAgvAdapterOptions}
  {adapter next : VirtualAgvAdapter}

private theorem advanceTraverse_change (math : MathLibrary) (options : VirtualAgvAdapterOptions)
    (inputs : TickInputs) {ongoing : OngoingTick}
    (ticking : adapter.ongoingTick = some ongoing) (phase : ongoing.phase = .traverse) :
    ∃ changed, Change math options adapter (.proceed inputs) changed ∧
      Quiet changed
        (adapter.advanceTraverse math options inputs ongoing.realInterval).1 := by
  unfold advanceTraverse
  cases traversing : adapter.traverseContext with
  | none => exact ⟨adapter, .nothing _, .refl⟩
  | some context =>
      dsimp only
      split
      · exact ⟨adapter, .nothing _, .refl⟩
      · next moving =>
        rw [Bool.or_eq_true, not_or, Bool.not_eq_true, Bool.not_eq_true] at moving
        cases positioned : context.endNode.bind (·.nodePosition) with
        | none => exact ⟨adapter, .nothing _, .refl⟩
        | some position =>
            dsimp only
            split
            · split
              · exact ⟨adapter, .nothing _, .refl⟩
              · next charged =>
                rw [Bool.not_eq_true] at charged
                have ready : adapter.isReadyToDrive options = true := by
                  simp [isReadyToDrive, traversing, positioned, moving, charged]
                exact ⟨_, .drives _ _ ticking phase ready, .refl⟩
            · split
              · exact ⟨adapter, .nothing _, Quiet.refl.arrive math options context position⟩
              · exact ⟨adapter, .nothing _, Quiet.refl.driveOn math options context _ _ _⟩

/-- Every step is a change followed by quiet operations. -/
theorem step_change {event : AdapterEvent} (stepped : step math options adapter event = some next) :
    ∃ changed, Change math options adapter event changed ∧ Quiet changed next := by
  cases event with
  | executeAction context =>
      cases stepped
      unfold executeAction
      cases defined : getActionDefinition context.action context.scope with
      | none => exact ⟨adapter, .nothing _, .refl⟩
      | some definition =>
          dsimp only
          split
          · next executable => exact ⟨_, .accepts defined executable, .refl⟩
          · exact ⟨adapter, .nothing _, Quiet.refl.call _⟩
  | finishEdgeAction context =>
      cases stepped
      unfold finishEdgeAction updateMatching
      split
      · exact ⟨adapter, .nothing _, .refl⟩
      · next found => exact ⟨_, .terminates (List.mem_of_find?_eq_some found), .refl⟩
  | cancelAction context =>
      cases stepped
      unfold cancelAction updateMatching
      split
      · exact ⟨adapter, .nothing _, .refl⟩
      · next found => exact ⟨_, .cancels (List.mem_of_find?_eq_some found), .refl⟩
  | traverseEdge context =>
      cases stepped
      exact ⟨adapter, .nothing _, ⟨rfl, rfl, rfl, rfl, rfl, id⟩⟩
  | stopTraverse context =>
      cases stepped
      exact ⟨_, .unpauses, Quiet.refl.call _⟩
  | onTick realInterval =>
      simp only [step] at stepped
      split at stepped
      · cases stepped
      · cases stepped
        exact ⟨adapter, .nothing _, ⟨rfl, rfl, rfl, rfl, rfl, id⟩⟩
  | proceed inputs =>
      simp only [step, Option.map_eq_some_iff] at stepped
      obtain ⟨ongoing, ticking, rfl⟩ := stepped
      unfold proceed
      cases phase : ongoing.phase with
      | machines index =>
          dsimp only
          cases found : adapter.actionStateMachines[index]? with
          | none => exact ⟨adapter, .nothing _, Quiet.refl.ongoingTick _⟩
          | some asm => exact ⟨_, .ticks ticking phase found, Quiet.refl.ongoingTick _⟩
      | traverse =>
          obtain ⟨changed, change, quiet⟩ :=
            advanceTraverse_change math options inputs ticking phase
          exact ⟨changed, change, quiet.ongoingTick _⟩
      | charge =>
          exact ⟨adapter, .nothing _,
            (Quiet.refl.advanceBatteryCharge options ongoing.realInterval).ongoingTick _⟩

end VirtualAgvAdapter

end Vda5050
