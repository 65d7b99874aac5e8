import Vda5050.VirtualAgvAdapter.ExclusiveDriving

/-!
# Reports of the low battery error

The adapter remembers the low battery error it has reported until the battery is
charged, and is to revoke it then. Only two parts of a tick concern this error: the
vehicle runs out of battery while it drives, and the battery is charged enough.
-/

set_option autoImplicit false

namespace Vda5050

namespace VirtualAgvAdapter

/-- The update of the errors that a call asks for. -/
def ControllerCall.errorUpdate : ControllerCall → Option (Error × AgvController.UpdateMode)
  | .updateErrors error mode => some (error, mode)
  | _ => none

/-- Low battery errors are added when none is pending, and pending ones are removed. -/
inductive ReportsErrors (math : MathLibrary) :
    Option Error → List ControllerCall → Option Error → Prop where
  | nothing (pending : Option Error) : ReportsErrors math pending [] pending
  | other {pending next : Option Error} {call : ControllerCall} {calls : List ControllerCall} :
      call.errorUpdate = none → ReportsErrors math pending calls next →
      ReportsErrors math pending (call :: calls) next
  | add {charge : Rat} {next : Option Error} {calls : List ControllerCall} :
      ReportsErrors math (some (lowBatteryError math charge)) calls next →
      ReportsErrors math none (.updateErrors (lowBatteryError math charge) .add :: calls) next
  | remove {error : Error} {next : Option Error} {calls : List ControllerCall} :
      ReportsErrors math none calls next →
      ReportsErrors math (some error) (.updateErrors error .remove :: calls) next

theorem ReportsErrors.append {math : MathLibrary} {pending middle next : Option Error}
    {calls calls' : List ControllerCall} (first : ReportsErrors math pending calls middle)
    (second : ReportsErrors math middle calls' next) :
    ReportsErrors math pending (calls ++ calls') next := by
  induction first with
  | nothing => exact second
  | other silent _ ih => exact .other silent (ih second)
  | add _ ih => exact .add (ih second)
  | remove _ ih => exact .remove (ih second)

/-- The calls made by the way report what becomes of the pending error. -/
def Reports (math : MathLibrary) (before after : VirtualAgvAdapter) : Prop :=
  ∃ calls, after.calls = before.calls ++ calls ∧
    ReportsErrors math before.batteryLowError calls after.batteryLowError

namespace Reports

variable {math : MathLibrary} {before middle after : VirtualAgvAdapter}

theorem trans (first : Reports math before middle) (second : Reports math middle after) :
    Reports math before after := by
  obtain ⟨calls, grown, reports⟩ := first
  obtain ⟨calls', grown', reports'⟩ := second
  exact ⟨calls ++ calls', by rw [grown', grown, List.append_assoc], reports.append reports'⟩

theorem of_same (pending : after.batteryLowError = before.batteryLowError)
    (calls : after.calls = before.calls) : Reports math before after :=
  ⟨[], by simp [calls], pending ▸ .nothing _⟩

theorem refl (adapter : VirtualAgvAdapter) : Reports math adapter adapter := of_same rfl rfl

/-- A call that does not concern errors. -/
theorem call (reports : Reports math before after) {call : ControllerCall}
    (silent : call.errorUpdate = none) :
    Reports math before (after.call call) :=
  reports.trans ⟨[call], rfl, .other silent (.nothing _)⟩

theorem add (reports : Reports math before after) (settled : after.batteryLowError = none)
    (charge : Rat) :
    Reports math before
      (VirtualAgvAdapter.call
        { after with batteryLowError := some (lowBatteryError math charge) }
        (.updateErrors (lowBatteryError math charge) .add)) := by
  refine reports.trans ⟨[.updateErrors (lowBatteryError math charge) .add], rfl, ?_⟩
  rw [settled]
  exact .add (.nothing _)

theorem remove (reports : Reports math before after) {error : Error}
    (pending : after.batteryLowError = some error) :
    Reports math before
      (VirtualAgvAdapter.call { after with batteryLowError := none }
        (.updateErrors error .remove)) := by
  refine reports.trans ⟨[.updateErrors error .remove], rfl, ?_⟩
  rw [pending]
  exact .remove (.nothing _)

theorem updateVehicle (reports : Reports math before after)
    (update : VirtualAgvState → VirtualAgvState) :
    Reports math before (after.updateVehicle update) :=
  reports.trans (of_same rfl rfl)

theorem updateMachines (reports : Reports math before after)
    (update : List ActionStateMachine → List ActionStateMachine) :
    Reports math before (after.updateMachines update) :=
  reports.trans (of_same rfl rfl)

theorem stopDriving (reports : Reports math before after) :
    Reports math before after.stopDriving :=
  ((reports.updateVehicle _).call rfl).call rfl

private theorem endTraversal (reports : Reports math before after) :
    Reports math before { after with traverseContext := none } :=
  reports.trans (of_same rfl rfl)

theorem standStill (reports : Reports math before after) : Reports math before after.standStill := by
  unfold VirtualAgvAdapter.standStill
  split
  · exact reports.stopDriving
  · exact reports

theorem updateBatteryState (reports : Reports math before after)
    (options : VirtualAgvAdapterOptions) (dx dy : Rat) :
    Reports math before (after.updateBatteryState math options dx dy) :=
  (reports.updateVehicle _).call rfl

/-- The vehicle moves, and reports its battery state and position. -/
theorem move (reports : Reports math before after) (options : VirtualAgvAdapterOptions)
    (x y theta dx dy : Rat) : Reports math before
      (((after.moveTo x y theta).updateBatteryState math options dx dy).reportPosition) :=
  ((reports.updateVehicle _).updateBatteryState options dx dy).call rfl

end Reports

variable {math : MathLibrary} {options : VirtualAgvAdapterOptions}
  {adapter after : VirtualAgvAdapter}

/-! ## Actions -/

private theorem startPause_reports (ref : Nat) :
    Reports math adapter (adapter.startPause ref).1 := by
  unfold startPause
  split
  · exact .refl adapter
  · exact ((Reports.refl adapter).standStill.updateVehicle _).updateMachines _

private theorem stopPause_reports (ref : Nat) : Reports math adapter (adapter.stopPause ref).1 := by
  unfold stopPause
  split
  · exact .refl adapter
  · exact .of_same rfl rfl

private theorem startCharging_reports : Reports math adapter adapter.startCharging.1 := by
  unfold startCharging
  split
  · exact .refl adapter
  · exact (Reports.refl adapter).standStill.updateVehicle _

private theorem stopCharging_reports (reports : Reports math adapter after) :
    Reports math adapter after.stopCharging.1 := by
  unfold stopCharging
  split
  · exact reports
  · exact reports.updateVehicle _

private theorem finishedEffect_reports {inputs : TickInputs} {asm : ActionStateMachine}
    {linkedState : LinkedState}
    (affected : adapter.finishedEffect inputs asm = some (after, linkedState)) :
    Reports math adapter after := by
  unfold finishedEffect at affected
  cases effect : asm.actionDefinition.transitions.finishedEffect with
  | none =>
      simp only [effect, Option.some.injEq, Prod.mk.injEq] at affected
      obtain ⟨rfl, -⟩ := affected
      exact .refl adapter
  | loadAdded =>
      simp only [effect, loadAdded, Option.some.injEq, Prod.mk.injEq] at affected
      obtain ⟨rfl, -⟩ := affected
      exact .of_same rfl rfl
  | loadRemoved =>
      simp only [effect, loadRemoved, Option.some.injEq, Prod.mk.injEq] at affected
      obtain ⟨rfl, -⟩ := affected
      exact .of_same rfl rfl
  | initPosition =>
      simp only [effect, initPosition, Option.bind_eq_bind, Option.bind_eq_some_iff,
        Option.some.injEq, Prod.mk.injEq] at affected
      obtain ⟨_, _, _, _, _, _, _, _, _, _, rfl, _⟩ := affected
      exact .of_same rfl rfl
  | startPause =>
      simp only [effect, Option.some.injEq] at affected
      have same : (adapter.startPause asm.ref).1 = after := congrArg Prod.fst affected
      exact same ▸ startPause_reports asm.ref
  | stopPause =>
      simp only [effect, Option.some.injEq] at affected
      have same : (adapter.stopPause asm.ref).1 = after := congrArg Prod.fst affected
      exact same ▸ stopPause_reports asm.ref
  | startCharging =>
      simp only [effect, Option.some.injEq] at affected
      have same : adapter.startCharging.1 = after := congrArg Prod.fst affected
      exact same ▸ startCharging_reports
  | stopCharging =>
      simp only [effect, Option.some.injEq] at affected
      have same : adapter.stopCharging.1 = after := congrArg Prod.fst affected
      exact same ▸ stopCharging_reports (.refl adapter)

private theorem reach_reports (adapter : VirtualAgvAdapter) (asm : ActionStateMachine)
    (actionStatus : ActionStatus) : Reports math adapter (adapter.reach asm actionStatus) := by
  unfold reach
  dsimp only
  split
  · exact .of_same rfl rfl
  · exact .of_same rfl rfl

private theorem transition_reports (inputs : TickInputs) (asm : ActionStateMachine)
    (actionStatus : ActionStatus) :
    Reports math adapter (adapter.transition inputs asm actionStatus).1 := by
  have reached : Reports math adapter (adapter.reach asm actionStatus) :=
    reach_reports adapter asm actionStatus
  cases actionStatus with
  | finished =>
      simp only [transition]
      cases affected : (adapter.reach asm .finished).finishedEffect inputs asm with
      | none => exact reached
      | some result =>
          obtain ⟨changed, linkedState⟩ := result
          exact (reached.trans (finishedEffect_reports affected)).call rfl
  | failed | initializing | paused | running | waiting => exact reached.call rfl

private theorem tickMachine_reports (inputs : TickInputs) (realInterval : Rat)
    (asm : ActionStateMachine) :
    Reports math adapter (adapter.tickMachine math inputs realInterval asm).1 := by
  unfold tickMachine
  cases asm.tick math realInterval with
  | stays asm => exact .of_same rfl rfl
  | transitions asm actionStatus =>
      cases actionStatus with
      | none => exact ((Reports.refl adapter).updateMachines _).call rfl
      | some actionStatus => exact transition_reports inputs asm actionStatus
  | typeError => exact .refl adapter

/-! ## Handlers -/

private theorem executeAction_reports (context : ActionContext) :
    Reports math adapter (adapter.executeAction context) := by
  unfold executeAction
  cases getActionDefinition context.action context.scope with
  | none => exact .refl adapter
  | some definition =>
      dsimp only
      split
      · unfold accept
        dsimp only
        split
        · exact (Reports.refl adapter).standStill.trans (.of_same rfl rfl)
        · exact .of_same rfl rfl
      · exact (Reports.refl adapter).call rfl

private theorem updateMatching_reports (update : ActionStateMachine → ActionStateMachine)
    (context : ActionContext) : Reports math adapter (adapter.updateMatching update context) := by
  unfold updateMatching
  cases adapter.actionStateMachines.find? (·.isMatch context.action.actionId context.scope) with
  | none => exact .refl adapter
  | some asm => exact .of_same rfl rfl

private theorem stopTraverse_reports (context : StopTraverseContext) :
    Reports math adapter (adapter.stopTraverse context) := by
  have given : Reports math adapter { adapter with traverseContext := none } := .of_same rfl rfl
  unfold stopTraverse stopPauseState
  split
  · exact given.standStill.call rfl
  · exact ((given.standStill.updateVehicle _).call rfl).call rfl

/-! ## Parts of a tick -/

/-- The vehicle stops on its way because the battery is low. -/
def runsOutOfBattery (options : VirtualAgvAdapterOptions) (adapter : VirtualAgvAdapter)
    (realInterval : Rat) : Bool :=
  let vehicle := adapter.vehicleState
  let dx := vehicle.velocity.vx * realInterval
  let dy := vehicle.velocity.vy * realInterval
  vehicle.isDriving && adapter.isBatteryLow options &&
    !vehicle.isPaused && !vehicle.batteryState.charging &&
    (adapter.traverseContext.bind fun context => context.endNode.bind (·.nodePosition)).any
      fun position =>
        dx ^ 2 + dy ^ 2 <
          (position.x - vehicle.position.x) ^ 2 + (position.y - vehicle.position.y) ^ 2

/-- The battery is charged by 10% above the threshold. -/
def chargesEnough (options : VirtualAgvAdapterOptions) (adapter : VirtualAgvAdapter)
    (realInterval : Rat) : Bool :=
  adapter.vehicleState.batteryState.charging && !adapter.vehicleState.isPaused &&
    options.lowBatteryChargeThreshold + 10 ≤ adapter.chargedBy options realInterval

private theorem arrive_reports (context : TraverseEdgeContext) (position : NodePosition) :
    Reports math adapter (adapter.arrive math options context position) := by
  have moved : Reports math adapter _ := (Reports.refl adapter).move options position.x position.y
    (position.theta.getD adapter.vehicleState.position.theta)
    (position.x - adapter.vehicleState.position.x) (position.y - adapter.vehicleState.position.y)
  exact moved.stopDriving.endTraversal.call rfl

private theorem driveOn_reports (context : TraverseEdgeContext) (dx dy alpha : Rat)
    (settled : adapter.isBatteryLow options = true → adapter.batteryLowError = none) :
    Reports math adapter (adapter.driveOn math options context dx dy alpha) := by
  have moved : Reports math adapter _ := (Reports.refl adapter).move options
    (adapter.vehicleState.position.x + dx) (adapter.vehicleState.position.y + dy)
    (context.edge.orientation.getD alpha) dx dy
  unfold driveOn
  dsimp only
  split
  · next low => exact moved.stopDriving.add (settled low) _
  · exact moved

private theorem advanceTraverse_reports (inputs : TickInputs) (realInterval : Rat)
    (settled : adapter.runsOutOfBattery options realInterval = true →
      adapter.batteryLowError = none) :
    Reports math adapter (adapter.advanceTraverse math options inputs realInterval).1 := by
  unfold advanceTraverse
  cases traversing : adapter.traverseContext with
  | none => exact .refl adapter
  | some context =>
      dsimp only
      split
      · exact .refl adapter
      · next moving =>
        rw [Bool.or_eq_true, not_or, Bool.not_eq_true, Bool.not_eq_true] at moving
        cases positioned : context.endNode.bind (·.nodePosition) with
        | none => exact .refl adapter
        | some position =>
            dsimp only
            split
            · split
              · exact .refl adapter
              · exact (((Reports.refl adapter).updateVehicle _).call rfl).call rfl
            · next driving =>
              split
              · exact arrive_reports context position
              · next under =>
                refine driveOn_reports context _ _ _ fun low => settled ?_
                simp only [Bool.not_eq_true, Bool.not_eq_false'] at driving
                simp [runsOutOfBattery, traversing, positioned, moving, driving, low,
                  lt_of_not_ge under]

/-- The error that is forgotten is removed if the tick is one of those that report. -/
private theorem reportCharge_reports (adapter : VirtualAgvAdapter)
    (reported : options.lowBatteryChargeThreshold + 10 ≤
        adapter.vehicleState.batteryState.batteryCharge →
      adapter.batteryLowError.isSome → (adapter.tick : Int) % updateTicks options = 0) :
    Reports math adapter
      ((adapter.clearBatteryLowError options).1.reportCharge options
        (adapter.clearBatteryLowError options).2) := by
  have silently : ∀ {state : VirtualAgvAdapter}, Reports math adapter state →
      Reports math adapter (state.reportCharge options none) := by
    intro state reports
    unfold reportCharge
    split
    · exact reports.call rfl
    · exact reports
  unfold clearBatteryLowError
  split
  · next enough =>
    cases pending : adapter.batteryLowError with
    | none => exact silently (.of_same pending.symm rfl)
    | some error =>
        have regular := reported enough (by simp [pending])
        unfold reportCharge
        simp only [regular, if_true]
        exact ((Reports.refl adapter).remove pending).call rfl
  · exact silently (.refl adapter)

private theorem advanceBatteryCharge_reports (realInterval : Rat)
    (reported : adapter.chargesEnough options realInterval = true →
      adapter.batteryLowError.isSome → (adapter.tick : Int) % updateTicks options = 0) :
    Reports math adapter (adapter.advanceBatteryCharge options realInterval) := by
  unfold advanceBatteryCharge
  split
  · exact .refl adapter
  · next charging =>
    rw [Bool.or_eq_true, not_or, Bool.not_eq_true, Bool.not_eq_true, Bool.not_eq_false'] at charging
    have charged : Reports math adapter ((adapter.setBatteryCharge options
        (adapter.chargedBy options realInterval)).reportBatteryState) :=
      ((Reports.refl adapter).updateVehicle _).call rfl
    have enough : options.lowBatteryChargeThreshold + 10 ≤ adapter.chargedBy options realInterval →
        adapter.chargesEnough options realInterval = true := fun enough => by
      simp [chargesEnough, charging, enough]
    have updated := charged.trans (reportCharge_reports _ fun charge => reported (enough charge))
    dsimp only
    split
    · exact (stopCharging_reports updated).call rfl
    · exact updated

/-! ## Every step -/

/-- While an error is pending, the vehicle does not run out of battery again, and the
battery is charged enough on a tick that reports the charge. -/
def ClearsOnReport (options : VirtualAgvAdapterOptions) (adapter : VirtualAgvAdapter) :
    AdapterEvent → Prop
  | .proceed _ => ∀ ongoing ∈ adapter.ongoingTick, adapter.batteryLowError.isSome →
      (ongoing.phase = .traverse → ¬ adapter.runsOutOfBattery options ongoing.realInterval) ∧
      (ongoing.phase = .charge → adapter.chargesEnough options ongoing.realInterval →
        (adapter.tick : Int) % updateTicks options = 0)
  | _ => True

private theorem proceed_reports {inputs : TickInputs} {ongoing : OngoingTick}
    (ticking : adapter.ongoingTick = some ongoing)
    (clears : adapter.ClearsOnReport options (.proceed inputs)) :
    Reports math adapter (adapter.proceed math options inputs ongoing) := by
  have continued : ∀ {result : VirtualAgvAdapter × Bool} (phase : TickPhase),
      Reports math adapter result.1 →
      Reports math adapter (continueTick ongoing.realInterval phase result) :=
    fun phase reports => reports.trans (.of_same rfl rfl)
  have pending := clears ongoing ticking
  unfold proceed
  cases phase : ongoing.phase with
  | machines index =>
      dsimp only
      cases adapter.actionStateMachines[index]? with
      | none => exact continued _ (.refl adapter)
      | some asm => exact continued _ (tickMachine_reports inputs _ asm)
  | traverse =>
      refine continued _ (advanceTraverse_reports inputs _ fun stops => ?_)
      by_contra some
      exact (pending (Option.isSome_iff_ne_none.mpr some)).1 phase stops
  | charge =>
      exact (advanceBatteryCharge_reports ongoing.realInterval fun enough some =>
        (pending some).2 phase enough).trans (.of_same rfl rfl)

theorem step_reports {event : AdapterEvent} (clears : adapter.ClearsOnReport options event)
    (stepped : step math options adapter event = some after) : Reports math adapter after := by
  cases event with
  | executeAction context =>
      cases stepped
      exact executeAction_reports context
  | finishEdgeAction context =>
      cases stepped
      exact updateMatching_reports _ context
  | cancelAction context =>
      cases stepped
      exact updateMatching_reports _ context
  | traverseEdge context =>
      cases stepped
      exact .of_same rfl rfl
  | stopTraverse context =>
      cases stepped
      exact stopTraverse_reports context
  | onTick realInterval =>
      simp only [step] at stepped
      split at stepped
      · cases stepped
      · cases stepped
        exact .of_same rfl rfl
  | proceed inputs =>
      simp only [step, Option.map_eq_some_iff] at stepped
      obtain ⟨ongoing, ticking, rfl⟩ := stepped
      exact proceed_reports ticking clears

private theorem stopCharging_batteryLowError (adapter : VirtualAgvAdapter) :
    adapter.stopCharging.1.batteryLowError = adapter.batteryLowError := by
  unfold stopCharging
  split <;> rfl

private theorem reportCharge_batteryLowError (adapter : VirtualAgvAdapter) (error : Option Error) :
    (adapter.reportCharge options error).batteryLowError = adapter.batteryLowError := by
  unfold reportCharge
  split
  · cases error <;> rfl
  · rfl

/-- After the battery has been charged enough, no error is pending. -/
theorem advanceBatteryCharge_settled {realInterval : Rat}
    (enough : adapter.chargesEnough options realInterval = true) :
    (adapter.advanceBatteryCharge options realInterval).batteryLowError = none := by
  simp only [chargesEnough, Bool.and_eq_true, Bool.not_eq_true', decide_eq_true_eq] at enough
  obtain ⟨⟨charging, unpaused⟩, enough⟩ := enough
  have cleared : ∀ state : VirtualAgvAdapter,
      options.lowBatteryChargeThreshold + 10 ≤ state.vehicleState.batteryState.batteryCharge →
      (state.clearBatteryLowError options).1.batteryLowError = none := by
    intro state above
    unfold clearBatteryLowError
    rw [if_pos above]
  have settled := cleared ((adapter.setBatteryCharge options
    (adapter.chargedBy options realInterval)).reportBatteryState) enough
  unfold advanceBatteryCharge
  simp only [charging, unpaused, Bool.not_true, Bool.or_self, Bool.false_eq_true, if_false]
  split
  · exact (stopCharging_batteryLowError _).trans
      ((reportCharge_batteryLowError _ _).trans settled)
  · exact (reportCharge_batteryLowError _ _).trans settled

end VirtualAgvAdapter

end Vda5050
