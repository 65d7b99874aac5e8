import Vda5050.VirtualAgvAdapter.Machine

/-!
# Driving, pause and charging

The vehicle starts driving only while it is neither paused nor charging and
has an edge to traverse, and it stops driving before any of these changes. What
the adapter reports of its driving state is followed along its calls.
-/

set_option autoImplicit false

namespace Vda5050

namespace VirtualAgvAdapter

/-! ## Reports of the driving state -/

def ControllerCall.drivingState : ControllerCall → Option Bool
  | .updateDrivingState driving => some driving
  | _ => none

/-- The driving state known after the given calls. -/
def reportedDriving (driving : Bool) (calls : List ControllerCall) : Bool :=
  calls.foldl (fun driving call => call.drivingState.getD driving) driving

@[simp] theorem reportedDriving_append (driving : Bool) (calls later : List ControllerCall) :
    reportedDriving driving (calls ++ later) =
      reportedDriving (reportedDriving driving calls) later :=
  List.foldl_append

private theorem reportedDriving_of_none {driving : Bool} {calls : List ControllerCall}
    (silent : ∀ call ∈ calls, call.drivingState = none) :
    reportedDriving driving calls = driving := by
  induction calls with
  | nil => rfl
  | cons call calls ih =>
      have first : call.drivingState = none := silent call List.mem_cons_self
      have later := ih fun other member => silent other (List.mem_cons_of_mem _ member)
      simpa [reportedDriving, first] using later

/-- Driving is exclusive with pause and charging, and known to the controller. -/
structure Exclusive (adapter : VirtualAgvAdapter) : Prop where
  unpaused : adapter.vehicleState.isDriving = true → adapter.vehicleState.isPaused = false
  uncharged : adapter.vehicleState.isDriving = true →
    adapter.vehicleState.batteryState.charging = false
  traverses : adapter.vehicleState.isDriving = true → adapter.traverseContext.isSome
  still : adapter.vehicleState.isDriving = false → adapter.vehicleState.velocity = {}
  reported : reportedDriving false adapter.calls = adapter.vehicleState.isDriving

/-- The vehicle stands still. -/
structure Stands (adapter : VirtualAgvAdapter) : Prop where
  isDriving : adapter.vehicleState.isDriving = false
  velocity : adapter.vehicleState.velocity = {}
  reported : reportedDriving false adapter.calls = false

theorem Stands.exclusive {adapter : VirtualAgvAdapter} (stands : Stands adapter) :
    Exclusive adapter where
  unpaused driving := by rw [stands.isDriving] at driving; cases driving
  uncharged driving := by rw [stands.isDriving] at driving; cases driving
  traverses driving := by rw [stands.isDriving] at driving; cases driving
  still _ := stands.velocity
  reported := stands.reported.trans stands.isDriving.symm

/-! ## Operations -/

/-- Nothing about driving changes, and nothing starts that excludes it. -/
structure Unaffected (before after : VirtualAgvAdapter) : Prop where
  isDriving : after.vehicleState.isDriving = before.vehicleState.isDriving
  velocity : after.vehicleState.velocity = before.vehicleState.velocity
  isPaused : after.vehicleState.isPaused = true → before.vehicleState.isPaused = true
  charging : after.vehicleState.batteryState.charging = true →
    before.vehicleState.batteryState.charging = true
  traverseContext : before.traverseContext.isSome → after.traverseContext.isSome
  calls : ∃ calls, after.calls = before.calls ++ calls ∧
    ∀ call ∈ calls, call.drivingState = none

/-- Calls are only added, and driving remains exclusive. -/
structure Conserves (before after : VirtualAgvAdapter) : Prop where
  calls : before.calls <+: after.calls
  exclusive : Exclusive before → Exclusive after

variable {before middle after adapter : VirtualAgvAdapter}

namespace Unaffected

theorem refl (adapter : VirtualAgvAdapter) : Unaffected adapter adapter :=
  ⟨rfl, rfl, id, id, id, [], by simp, by simp⟩

theorem trans (first : Unaffected before middle) (second : Unaffected middle after) :
    Unaffected before after := by
  obtain ⟨calls, grown, silent⟩ := first.calls
  obtain ⟨calls', grown', silent'⟩ := second.calls
  refine ⟨second.isDriving.trans first.isDriving, second.velocity.trans first.velocity,
    first.isPaused ∘ second.isPaused, first.charging ∘ second.charging,
    second.traverseContext ∘ first.traverseContext, calls ++ calls', ?_, ?_⟩
  · rw [grown', grown, List.append_assoc]
  · intro call member
    rcases List.mem_append.mp member with member | member
    · exact silent call member
    · exact silent' call member

theorem reported (unaffected : Unaffected before after) (driving : Bool) :
    reportedDriving driving after.calls = reportedDriving driving before.calls := by
  obtain ⟨calls, grown, silent⟩ := unaffected.calls
  rw [grown, reportedDriving_append, reportedDriving_of_none silent]

theorem stands (unaffected : Unaffected before after) (stands : Stands before) : Stands after :=
  ⟨unaffected.isDriving.trans stands.isDriving, unaffected.velocity.trans stands.velocity,
    (unaffected.reported false).trans stands.reported⟩

theorem exclusive (unaffected : Unaffected before after) (exclusive : Exclusive before) :
    Exclusive after := by
  have excluded : ∀ {now earlier : Bool}, (now = true → earlier = true) → earlier = false →
      now = false := by
    intro now earlier starts excluded
    cases now with
    | false => rfl
    | true => rw [starts rfl] at excluded; cases excluded
  have same := unaffected.isDriving
  constructor
  · intro driving
    exact excluded unaffected.isPaused (exclusive.unpaused (same.symm.trans driving))
  · intro driving
    exact excluded unaffected.charging (exclusive.uncharged (same.symm.trans driving))
  · intro driving
    exact unaffected.traverseContext (exclusive.traverses (same.symm.trans driving))
  · intro standing
    exact unaffected.velocity.trans (exclusive.still (same.symm.trans standing))
  · rw [unaffected.reported, exclusive.reported, same]

theorem conserves (unaffected : Unaffected before after) : Conserves before after := by
  obtain ⟨calls, grown, -⟩ := unaffected.calls
  exact ⟨grown ▸ List.prefix_append _ _, unaffected.exclusive⟩

theorem call (unaffected : Unaffected before after) {call : ControllerCall}
    (silent : call.drivingState = none) : Unaffected before (after.call call) :=
  unaffected.trans ⟨rfl, rfl, id, id, id, [call], rfl, by simpa using silent⟩

/-- The vehicle and its edge traversal are kept. -/
theorem of_same (vehicle : after.vehicleState = before.vehicleState)
    (traversal : after.traverseContext = before.traverseContext)
    (calls : after.calls = before.calls) : Unaffected before after := by
  refine ⟨by rw [vehicle], by rw [vehicle], ?_, ?_, ?_, [], by simp [calls], by simp⟩
  · rw [vehicle]; exact id
  · rw [vehicle]; exact id
  · rw [traversal]; exact id

end Unaffected

namespace Conserves

theorem refl (adapter : VirtualAgvAdapter) : Conserves adapter adapter :=
  (Unaffected.refl adapter).conserves

theorem trans (first : Conserves before middle) (second : Conserves middle after) :
    Conserves before after :=
  ⟨first.calls.trans second.calls, second.exclusive ∘ first.exclusive⟩

/-- The vehicle and its edge traversal are kept. -/
theorem of_same (vehicle : after.vehicleState = before.vehicleState)
    (traversal : after.traverseContext = before.traverseContext)
    (calls : after.calls = before.calls) : Conserves before after :=
  (Unaffected.of_same vehicle traversal calls).conserves

/-- The vehicle stops for what follows. -/
private theorem of_stands (calls : before.calls <+: middle.calls)
    (stands : Exclusive before → Stands middle) (unaffected : Unaffected middle after) :
    Conserves before after := by
  obtain ⟨later, grown, -⟩ := unaffected.calls
  exact ⟨calls.trans (grown ▸ List.prefix_append _ _),
    fun exclusive => (unaffected.stands (stands exclusive)).exclusive⟩

end Conserves

/-! ### Driving -/

private theorem stopDriving_stands (adapter : VirtualAgvAdapter) : Stands adapter.stopDriving :=
  ⟨rfl, rfl, by
    simp [stopDriving, call, updateVehicle, reportedDriving, ControllerCall.drivingState]⟩

private theorem stopDriving_calls (adapter : VirtualAgvAdapter) :
    adapter.calls <+: adapter.stopDriving.calls :=
  ⟨[.updateDrivingState false, .updateAgvVelocity {}], by simp [stopDriving, call, updateVehicle]⟩

private theorem standStill_stands (exclusive : Exclusive adapter) : Stands adapter.standStill := by
  unfold standStill
  cases driving : adapter.vehicleState.isDriving with
  | true => exact stopDriving_stands adapter
  | false => exact ⟨driving, exclusive.still driving, exclusive.reported.trans driving⟩

private theorem standStill_calls (adapter : VirtualAgvAdapter) :
    adapter.calls <+: adapter.standStill.calls := by
  unfold standStill
  cases adapter.vehicleState.isDriving with
  | true => exact stopDriving_calls adapter
  | false => exact List.prefix_rfl

private theorem standStill_conserves (adapter : VirtualAgvAdapter) :
    Conserves adapter adapter.standStill :=
  .of_stands (standStill_calls adapter) standStill_stands (.refl _)

/-- The vehicle starts driving if nothing excludes it. -/
private theorem startDriving_conserves (vx vy : Rat)
    (unpaused : adapter.vehicleState.isPaused = false)
    (uncharged : adapter.vehicleState.batteryState.charging = false)
    (traverses : adapter.traverseContext.isSome) :
    Conserves adapter (adapter.startDriving vx vy) where
  calls := ⟨[.updateDrivingState true, .updateAgvVelocity { vx, vy }], by
    simp [startDriving, call, updateVehicle]⟩
  exclusive _ :=
    { unpaused := fun _ => unpaused
      uncharged := fun _ => uncharged
      traverses := fun _ => traverses
      still := fun standing => by cases standing
      reported := by
        simp [startDriving, call, updateVehicle, reportedDriving, ControllerCall.drivingState] }

/-! ### Actions -/

private theorem reach_unaffected (adapter : VirtualAgvAdapter) (asm : ActionStateMachine)
    (actionStatus : ActionStatus) : Unaffected adapter (adapter.reach asm actionStatus) := by
  unfold reach
  dsimp only
  split
  · exact .of_same rfl rfl rfl
  · exact .of_same rfl rfl rfl

private theorem startPause_conserves (ref : Nat) :
    Conserves adapter (adapter.startPause ref).1 := by
  unfold startPause
  split
  · exact .refl adapter
  · have calls := standStill_calls adapter
    refine ⟨calls, fun exclusive => Stands.exclusive ?_⟩
    have stands := standStill_stands exclusive
    exact ⟨stands.isDriving, stands.velocity, stands.reported⟩

private theorem stopPause_unaffected (ref : Nat) :
    Unaffected adapter (adapter.stopPause ref).1 := by
  unfold stopPause
  split
  · exact .refl adapter
  · exact ⟨rfl, rfl, (fun paused => by cases paused), id, id, [], by
      simp [updateVehicle, updateMachines], by simp⟩

private theorem startCharging_conserves : Conserves adapter adapter.startCharging.1 := by
  unfold startCharging
  split
  · exact .refl adapter
  · have calls := standStill_calls adapter
    refine ⟨calls, fun exclusive => Stands.exclusive ?_⟩
    have stands := standStill_stands exclusive
    exact ⟨stands.isDriving, stands.velocity, stands.reported⟩

private theorem stopCharging_unaffected : Unaffected adapter adapter.stopCharging.1 := by
  unfold stopCharging
  split
  · exact .refl adapter
  · exact ⟨rfl, rfl, id, (fun charging => by cases charging), id, [], by
      simp [setCharging, updateVehicle], by simp⟩

private theorem initPosition_unaffected {action : Action} {linkedState : LinkedState}
    (initialized : adapter.initPosition action = some (after, linkedState)) :
    Unaffected adapter after := by
  simp only [initPosition, Option.bind_eq_bind, Option.bind_eq_some_iff, Option.some.injEq,
    Prod.mk.injEq] at initialized
  obtain ⟨_, _, _, _, _, _, _, _, _, _, rfl, _⟩ := initialized
  exact ⟨rfl, rfl, id, id, id, [], by simp [updateVehicle], by simp⟩

private theorem finishedEffect_conserves {inputs : TickInputs} {asm : ActionStateMachine}
    {linkedState : LinkedState}
    (affected : adapter.finishedEffect inputs asm = some (after, linkedState)) :
    Conserves adapter after := by
  unfold finishedEffect at affected
  cases effect : asm.actionDefinition.transitions.finishedEffect with
  | none =>
      simp only [effect, Option.some.injEq, Prod.mk.injEq] at affected
      obtain ⟨rfl, -⟩ := affected
      exact .refl adapter
  | loadAdded =>
      simp only [effect, loadAdded, Option.some.injEq, Prod.mk.injEq] at affected
      obtain ⟨rfl, -⟩ := affected
      exact Unaffected.conserves ⟨rfl, rfl, id, id, id, [], by simp [updateVehicle], by simp⟩
  | loadRemoved =>
      simp only [effect, loadRemoved, Option.some.injEq, Prod.mk.injEq] at affected
      obtain ⟨rfl, -⟩ := affected
      exact Unaffected.conserves ⟨rfl, rfl, id, id, id, [], by simp [updateVehicle], by simp⟩
  | initPosition =>
      simp only [effect] at affected
      exact (initPosition_unaffected affected).conserves
  | startPause =>
      simp only [effect, Option.some.injEq] at affected
      have same : (adapter.startPause asm.ref).1 = after := congrArg Prod.fst affected
      exact same ▸ startPause_conserves asm.ref
  | stopPause =>
      simp only [effect, Option.some.injEq] at affected
      have same : (adapter.stopPause asm.ref).1 = after := congrArg Prod.fst affected
      exact same ▸ (stopPause_unaffected asm.ref).conserves
  | startCharging =>
      simp only [effect, Option.some.injEq] at affected
      have same : adapter.startCharging.1 = after := congrArg Prod.fst affected
      exact same ▸ startCharging_conserves
  | stopCharging =>
      simp only [effect, Option.some.injEq] at affected
      have same : adapter.stopCharging.1 = after := congrArg Prod.fst affected
      exact same ▸ stopCharging_unaffected.conserves

private theorem transition_conserves (inputs : TickInputs) (asm : ActionStateMachine)
    (actionStatus : ActionStatus) :
    Conserves adapter (adapter.transition inputs asm actionStatus).1 := by
  have reached := reach_unaffected adapter asm actionStatus
  cases actionStatus with
  | finished =>
      simp only [transition]
      cases affected : (adapter.reach asm .finished).finishedEffect inputs asm with
      | none => exact reached.conserves
      | some result =>
          obtain ⟨changed, linkedState⟩ := result
          exact (reached.conserves.trans (finishedEffect_conserves affected)).trans
            ((Unaffected.refl changed).call rfl).conserves
  | failed => exact (reached.call rfl).conserves
  | initializing => exact (reached.call rfl).conserves
  | paused => exact (reached.call rfl).conserves
  | running => exact (reached.call rfl).conserves
  | waiting => exact (reached.call rfl).conserves

private theorem tickMachine_conserves (math : MathLibrary) (inputs : TickInputs)
    (realInterval : Rat) (asm : ActionStateMachine) :
    Conserves adapter (adapter.tickMachine math inputs realInterval asm).1 := by
  unfold tickMachine
  cases asm.tick math realInterval with
  | stays asm => exact .of_same rfl rfl rfl
  | transitions asm actionStatus =>
      cases actionStatus with
      | none =>
          have advanced : Unaffected adapter
              (adapter.advanceMachine { asm with actionStatus := none }) := .of_same rfl rfl rfl
          exact (advanced.call rfl).conserves
      | some actionStatus => exact transition_conserves inputs asm actionStatus
  | typeError => exact .refl adapter

/-! ### Handlers -/

private theorem accept_conserves (context : ActionContext) (definition : VirtualActionDefinition) :
    Conserves adapter (adapter.accept context definition) := by
  unfold accept
  dsimp only
  split
  · exact (standStill_conserves adapter).trans (.of_same rfl rfl rfl)
  · exact .of_same rfl rfl rfl

private theorem executeAction_conserves (context : ActionContext) :
    Conserves adapter (adapter.executeAction context) := by
  unfold executeAction
  cases getActionDefinition context.action context.scope with
  | none => exact .refl adapter
  | some definition =>
      dsimp only
      split
      · exact accept_conserves context definition
      · exact ((Unaffected.refl adapter).call rfl).conserves

private theorem updateMatching_unaffected (update : ActionStateMachine → ActionStateMachine)
    (context : ActionContext) : Unaffected adapter (adapter.updateMatching update context) := by
  unfold updateMatching
  cases adapter.actionStateMachines.find? (·.isMatch context.action.actionId context.scope) with
  | none => exact .refl adapter
  | some asm => exact .of_same rfl rfl rfl

private theorem stopPauseState_unaffected : Unaffected adapter adapter.stopPauseState := by
  unfold stopPauseState
  split
  · exact .refl adapter
  · have unpaused : Unaffected adapter
        (adapter.updateVehicle fun vehicle => { vehicle with isPaused := false }) :=
      ⟨rfl, rfl, (fun paused => by cases paused), id, id, [], by simp [updateVehicle], by simp⟩
    exact unpaused.call rfl

/-- The traversal is given up before the vehicle stops, so that driving is not
exclusive in between. -/
private theorem stopTraverse_conserves (context : StopTraverseContext) :
    Conserves adapter (adapter.stopTraverse context) := by
  refine .of_stands (standStill_calls { adapter with traverseContext := none }) ?_
    (stopPauseState_unaffected.call rfl)
  intro exclusive
  unfold standStill
  cases driving : adapter.vehicleState.isDriving with
  | true => exact stopDriving_stands _
  | false => exact ⟨driving, exclusive.still driving, exclusive.reported.trans driving⟩

/-! ### Parts of a tick -/

private theorem updateBatteryState_unaffected (math : MathLibrary)
    (options : VirtualAgvAdapterOptions)
    (dx dy : Rat) : Unaffected adapter (adapter.updateBatteryState math options dx dy) := by
  have charged (charge : Rat) : Unaffected adapter (adapter.setBatteryCharge options charge) :=
    ⟨rfl, rfl, id, id, id, [], by simp [setBatteryCharge, updateVehicle], by simp⟩
  exact (charged _).call rfl

/-- The vehicle moves, and reports its battery state and position. -/
private theorem move_unaffected (adapter : VirtualAgvAdapter) (math : MathLibrary)
    (options : VirtualAgvAdapterOptions) (x y theta dx dy : Rat) : Unaffected adapter
      (((adapter.moveTo x y theta).updateBatteryState math options dx dy).reportPosition) := by
  have moved : Unaffected adapter (adapter.moveTo x y theta) :=
    ⟨rfl, rfl, id, id, id, [], by simp [moveTo, updateVehicle], by simp⟩
  exact (moved.trans (updateBatteryState_unaffected math options dx dy)).call rfl

private theorem arrive_conserves (math : MathLibrary) (options : VirtualAgvAdapterOptions)
    (context : TraverseEdgeContext) (position : NodePosition) :
    Conserves adapter (adapter.arrive math options context position) := by
  have moved := move_unaffected adapter math options position.x position.y
    (position.theta.getD adapter.vehicleState.position.theta)
    (position.x - adapter.vehicleState.position.x) (position.y - adapter.vehicleState.position.y)
  have stands := stopDriving_stands (((adapter.moveTo position.x position.y
    (position.theta.getD adapter.vehicleState.position.theta)).updateBatteryState math options
      (position.x - adapter.vehicleState.position.x)
      (position.y - adapter.vehicleState.position.y)).reportPosition)
  have halted : Conserves adapter { stopDriving _ with traverseContext := none } :=
    ⟨moved.conserves.calls.trans (stopDriving_calls _), fun _ =>
      Stands.exclusive ⟨stands.isDriving, stands.velocity, stands.reported⟩⟩
  exact halted.trans ((Unaffected.refl _).call rfl).conserves

private theorem driveOn_conserves (math : MathLibrary) (options : VirtualAgvAdapterOptions)
    (context : TraverseEdgeContext) (dx dy alpha : Rat) :
    Conserves adapter (adapter.driveOn math options context dx dy alpha) := by
  have moved := move_unaffected adapter math options
    (adapter.vehicleState.position.x + dx) (adapter.vehicleState.position.y + dy)
    (context.edge.orientation.getD alpha) dx dy
  unfold driveOn
  dsimp only
  split
  · refine .of_stands (moved.conserves.calls.trans (stopDriving_calls _))
      (fun _ => stopDriving_stands _) (Unaffected.call ?_ rfl)
    exact .of_same rfl rfl rfl
  · exact moved.conserves

private theorem advanceTraverse_conserves (math : MathLibrary) (options : VirtualAgvAdapterOptions)
    (inputs : TickInputs) (realInterval : Rat) :
    Conserves adapter (adapter.advanceTraverse math options inputs realInterval).1 := by
  unfold advanceTraverse
  cases traversing : adapter.traverseContext with
  | none => exact .refl adapter
  | some context =>
      dsimp only
      split
      · exact .refl adapter
      · next excluded =>
        rw [Bool.or_eq_true, not_or, Bool.not_eq_true, Bool.not_eq_true] at excluded
        cases context.endNode.bind (·.nodePosition) with
        | none => exact .refl adapter
        | some position =>
            dsimp only
            split
            · split
              · exact .refl adapter
              · exact startDriving_conserves _ _ excluded.1 excluded.2 (by simp [traversing])
            · split
              · exact arrive_conserves math options context position
              · exact driveOn_conserves math options context _ _ _

private theorem advanceBatteryCharge_unaffected (options : VirtualAgvAdapterOptions)
    (realInterval : Rat) :
    Unaffected adapter (adapter.advanceBatteryCharge options realInterval) := by
  unfold advanceBatteryCharge
  split
  · exact .refl adapter
  · have charged : Unaffected adapter
        (adapter.setBatteryCharge options (adapter.chargedBy options realInterval)) :=
      ⟨rfl, rfl, id, id, id, [], by simp [setBatteryCharge, updateVehicle], by simp⟩
    have reported : Unaffected adapter (adapter.setBatteryCharge options
        (adapter.chargedBy options realInterval)).reportBatteryState := charged.call rfl
    have cleared : ∀ state : VirtualAgvAdapter,
        Unaffected state (state.clearBatteryLowError options).1 := by
      intro state
      unfold clearBatteryLowError
      split
      · exact .of_same rfl rfl rfl
      · exact .refl state
    have updated : ∀ (state : VirtualAgvAdapter) (error : Option Error),
        Unaffected state (state.reportCharge options error) := by
      intro state error
      unfold reportCharge
      split
      · cases error with
        | none => exact (Unaffected.refl state).call rfl
        | some error => exact ((Unaffected.refl state).call rfl).call rfl
      · exact .refl state
    have advanced := fun error => (reported.trans (cleared _)).trans (updated _ error)
    dsimp only
    split
    · exact ((advanced _).trans stopCharging_unaffected).call rfl
    · exact advanced _

/-! ## Every step -/

private theorem proceed_conserves (math : MathLibrary) (options : VirtualAgvAdapterOptions)
    (inputs : TickInputs) (ongoing : OngoingTick) :
    Conserves adapter (adapter.proceed math options inputs ongoing) := by
  have continued : ∀ {result : VirtualAgvAdapter × Bool} (phase : TickPhase),
      Conserves adapter result.1 →
      Conserves adapter (continueTick ongoing.realInterval phase result) :=
    fun phase conserves => conserves.trans (.of_same rfl rfl rfl)
  unfold proceed
  cases ongoing.phase with
  | machines index =>
      dsimp only
      cases adapter.actionStateMachines[index]? with
      | none => exact continued _ (.refl adapter)
      | some asm => exact continued _ (tickMachine_conserves math inputs _ asm)
  | traverse => exact continued _ (advanceTraverse_conserves math options inputs _)
  | charge =>
      exact (advanceBatteryCharge_unaffected options ongoing.realInterval).conserves.trans
        (.of_same rfl rfl rfl)

theorem step_conserves {math : MathLibrary} {options : VirtualAgvAdapterOptions}
    {event : AdapterEvent} (stepped : step math options adapter event = some after) :
    Conserves adapter after := by
  cases event with
  | executeAction context =>
      cases stepped
      exact executeAction_conserves context
  | finishEdgeAction context =>
      cases stepped
      exact (updateMatching_unaffected _ context).conserves
  | cancelAction context =>
      cases stepped
      exact (updateMatching_unaffected _ context).conserves
  | traverseEdge context =>
      cases stepped
      exact Unaffected.conserves
        ⟨rfl, rfl, id, id, fun _ => rfl, [], by simp [traverseEdge], by simp⟩
  | stopTraverse context =>
      cases stepped
      exact stopTraverse_conserves context
  | onTick realInterval =>
      simp only [step] at stepped
      split at stepped
      · cases stepped
      · cases stepped
        exact .of_same rfl rfl rfl
  | proceed inputs =>
      simp only [step, Option.map_eq_some_iff] at stepped
      obtain ⟨ongoing, -, rfl⟩ := stepped
      exact proceed_conserves math options inputs ongoing

theorem exclusive_attached (options : VirtualAgvAdapterOptions) : Exclusive (attached options) where
  unpaused driving := by cases driving
  uncharged driving := by cases driving
  traverses driving := by cases driving
  still _ := rfl
  reported := rfl

end VirtualAgvAdapter

end Vda5050
