import Vda5050.AgvController.ReportedProgress

/-!
# Reports of the vehicle

The controller does not change the vehicle state on its own: it is the one supplied last
by the adapter, and so it is in every State published meanwhile.
-/

set_option autoImplicit false

namespace Vda5050

open AgvController

/-- The properties of a state that the virtual vehicle supplies for the whole of a run. -/
structure VehicleReport where
  driving : Bool
  paused : Option Bool
  batteryState : BatteryState
  deriving DecidableEq, Repr

def State.vehicleReport (state : State) : VehicleReport where
  driving := state.driving
  paused := state.paused
  batteryState := state.batteryState

def VehicleReport.supply (report : VehicleReport) (state : PartialState) : VehicleReport where
  driving := state.driving.getD report.driving
  paused := state.paused <|> report.paused
  batteryState := state.batteryState.getD report.batteryState

@[simp] theorem VehicleReport.supply_empty (report : VehicleReport) :
    report.supply {} = report := by
  simp [supply]

/-- The two partial states agree on the vehicle. -/
structure PartialState.SameVehicle (state other : PartialState) : Prop where
  driving : state.driving = other.driving
  paused : state.paused = other.paused
  batteryState : state.batteryState = other.batteryState

theorem PartialState.SameVehicle.supply {state other : PartialState}
    (same : state.SameVehicle other) (report : VehicleReport) :
    report.supply state = report.supply other := by
  simp [VehicleReport.supply, same.driving, same.paused, same.batteryState]

theorem PartialState.SameVehicle.trans {state other third : PartialState}
    (first : state.SameVehicle other) (second : other.SameVehicle third) :
    state.SameVehicle third :=
  ⟨first.driving.trans second.driving, first.paused.trans second.paused,
    first.batteryState.trans second.batteryState⟩

/-- Properties of the vehicle assigned to a state that has none. -/
private theorem PartialState.assign_sameVehicle {target : PartialState}
    (none : target.SameVehicle {})
    (source : PartialState) : (target.assign source).SameVehicle source :=
  ⟨by simp [assign, none.driving], by simp [assign, none.paused],
    by simp [assign, none.batteryState]⟩

namespace Config

def vehicleReport (c : Config) : VehicleReport := c.agv.currentState.vehicleReport

/-- Some of the vehicle state is supplied, and States are published before or after. -/
structure ReportsVehicle (supplied : PartialState) (c next : Config) : Prop where
  vehicle : next.vehicleReport = c.vehicleReport.supply supplied
  published : ∀ state ∈ next.published, state ∈ c.published ∨
    state.vehicleReport = c.vehicleReport ∨
    state.vehicleReport = c.vehicleReport.supply supplied

variable {c middle next : Config} {supplied : PartialState}

namespace ReportsVehicle

/-- Neither the vehicle nor the publications change. -/
theorem nothing (vehicle : next.vehicleReport = c.vehicleReport)
    (published : next.published = c.published) : ReportsVehicle {} c next where
  vehicle := by rw [vehicle, VehicleReport.supply_empty]
  published := fun state member => .inl (published ▸ member)

theorem of_same (same : SameReports c next) : ReportsVehicle {} c next :=
  .nothing (congrArg State.vehicleReport same.currentState) same.published

theorem refl (c : Config) : ReportsVehicle {} c c := .nothing rfl rfl

private theorem vehicle_eq (reports : ReportsVehicle {} c next) :
    next.vehicleReport = c.vehicleReport := by
  simpa using reports.vehicle

private theorem published_eq (reports : ReportsVehicle {} c next) {state : State}
    (member : state ∈ next.published) :
    state ∈ c.published ∨ state.vehicleReport = c.vehicleReport := by
  simpa using reports.published state member

/-- What happens before the vehicle state is supplied. -/
theorem after (first : ReportsVehicle {} c middle) (second : ReportsVehicle supplied middle next) :
    ReportsVehicle supplied c next := by
  have same := first.vehicle_eq
  refine ⟨by rw [second.vehicle, same], fun state member => ?_⟩
  rcases second.published state member with earlier | reported
  · exact (first.published_eq earlier).imp_right .inl
  · exact .inr (same ▸ reported)

/-- What is changed before concerns neither the vehicle nor the publications. -/
theorem of_kept (reports : ReportsVehicle supplied middle next)
    (vehicle : middle.vehicleReport = c.vehicleReport)
    (published : middle.published = c.published) : ReportsVehicle supplied c next := by
  obtain ⟨supplies, publishes⟩ := reports
  rw [vehicle] at supplies publishes
  exact ⟨supplies, published ▸ publishes⟩

/-- What happens when the vehicle state has been supplied. -/
theorem trans (first : ReportsVehicle supplied c middle) (second : ReportsVehicle {} middle next) :
    ReportsVehicle supplied c next := by
  refine ⟨second.vehicle_eq.trans first.vehicle, fun state member => ?_⟩
  rcases second.published_eq member with earlier | reported
  · exact first.published state earlier
  · exact .inr (.inr (reported.trans first.vehicle))

theorem same (first : ReportsVehicle supplied c middle) (second : SameReports middle next) :
    ReportsVehicle supplied c next :=
  first.trans (.of_same second)

end ReportsVehicle

/-! ## Updates and publications -/

private theorem publishCurrentState_vehicle (c : Config) :
    ReportsVehicle {} c c.publishCurrentState := by
  unfold publishCurrentState
  split
  · refine ⟨by simp [vehicleReport], fun state member => ?_⟩
    rcases List.mem_append.mp member with earlier | reported
    · exact .inl earlier
    · exact .inr (.inl (List.mem_singleton.mp reported ▸ rfl))
  · exact .refl c

private theorem updateState_vehicle (c : Config) {state : PartialState}
    (same : state.SameVehicle supplied) (publishImmediately : Bool) :
    ReportsVehicle supplied c (c.updateState state publishImmediately) := by
  have merged : ReportsVehicle supplied c (c.mergeState state) :=
    ⟨same.supply c.vehicleReport, fun state member => .inl member⟩
  unfold updateState
  split
  · exact merged.trans (publishCurrentState_vehicle _)
  · exact merged

private theorem addError_vehicle (c : Config) (error : Error) :
    ReportsVehicle {} c (c.addError error) := by
  refine ReportsVehicle.of_kept (updateState_vehicle _ ?_ true) rfl rfl
  exact ⟨rfl, rfl, rfl⟩

private theorem addInstantActionError_vehicle (c : Config) (error : Error) :
    ReportsVehicle {} c (c.addInstantActionError error) :=
  (addError_vehicle _ error).of_kept rfl rfl

private theorem rejectOrder_vehicle (c : Config) (error : Error) :
    ReportsVehicle {} c (c.rejectOrder error) :=
  (addError_vehicle c error).same (observe_sameReports _ _)

/-- A cloned state is the same, apart from the identities of errors. -/
private theorem cloneState_sameVehicle (agv : AgvController) (state : PartialState) :
    (agv.cloneState state).1.SameVehicle state := by
  rw [cloneState_fst]
  exact ⟨rfl, rfl, rfl⟩

private theorem cloneState_sameReports (c : Config) (state : PartialState) :
    SameReports c { c with agv := (c.agv.cloneState state).2 } := by
  rw [cloneState_snd]
  exact ⟨rfl, rfl, rfl⟩

/-- The linked state of an action is supplied with its status. -/
private theorem reportActionStatus_vehicle (c : Config) (context : ActionContext)
    (change : ActionStatusChangeInfo) :
    ReportsVehicle change.linkedState c (c.reportActionStatus context change) := by
  have cloned := cloneState_sameVehicle { c.agv with nextErrorRef := c.agv.nextErrorRef + 1 }
    change.linkedState
  have kept := cloneState_sameReports
    { c with agv := { c.agv with nextErrorRef := c.agv.nextErrorRef + 1 } } change.linkedState
  unfold reportActionStatus
  refine ReportsVehicle.same (.after (.of_same ?_)
    (updateState_vehicle _ ?_ true)) (observe_sameReports _ _)
  · exact ⟨kept.online, kept.published, kept.currentState⟩
  · refine (PartialState.assign_sameVehicle ?_ _).trans cloned
    exact ⟨rfl, rfl, rfl⟩

private theorem updatePartialState_vehicle (c : Config) (newState : PartialState)
    (reportImmediately : Bool) :
    ReportsVehicle newState c (c.updatePartialState newState reportImmediately) := by
  unfold updatePartialState
  exact .after (.of_same (cloneState_sameReports c newState))
    (updateState_vehicle _ (cloneState_sameVehicle c.agv newState) reportImmediately)

private theorem nodeTraversed_vehicle (c : Config) (node : Node) (traversedEdge : Option Edge) :
    ReportsVehicle {} c (c.nodeTraversed node traversedEdge) := by
  unfold nodeTraversed
  refine ReportsVehicle.same (ReportsVehicle.same (updateState_vehicle c ?_ true)
    (observe_sameReports _ _)) (processNodeActions_sameReports _ _ _)
  exact ⟨rfl, rfl, rfl⟩

private theorem processNode_vehicle (c : Config) (node : Node) (traversedEdge : Option Edge) :
    ReportsVehicle {} c (c.processNode node traversedEdge) := by
  unfold processNode
  split
  · exact .refl c
  · split
    · exact .of_same ⟨rfl, rfl, rfl⟩
    · cases traversedEdge with
      | none => exact nodeTraversed_vehicle c node none
      | some edge => exact .of_same (call_sameReports c _)

/-! ## Actions -/

private theorem updateActionStatus_vehicle (c : Config) (context : ActionContext)
    (change : ActionStatusChangeInfo) :
    ReportsVehicle change.linkedState c (c.updateActionStatus context change) := by
  have reported := reportActionStatus_vehicle c context change
  unfold updateActionStatus
  dsimp only
  split
  · exact reported
  · refine reported.same ?_
    cases context.scope with
    | instant => exact instantActionEnded_sameReports _ _
    | node node =>
        dsimp only
        split
        · exact orderActionCanceled_sameReports _
        · exact nodeActionEnded_sameReports _ _ _
    | edge edge =>
        dsimp only
        split
        · exact orderActionCanceled_sameReports _
        · exact edgeActionEnded_sameReports _ _ _

/-- A status that the controller sets itself. -/
private theorem updateActionStatus_unlinked (c : Config) (context : ActionContext)
    {change : ActionStatusChangeInfo} (unlinked : change.linkedState = {}) :
    ReportsVehicle {} c (c.updateActionStatus context change) :=
  unlinked ▸ updateActionStatus_vehicle c context change

private theorem processInstantAction_vehicle (c : Config) (action : Option Action)
    (stopDriving : Bool) :
    ReportsVehicle {} c (c.processInstantAction action stopDriving) := by
  unfold processInstantAction
  cases action with
  | none => exact .of_same ⟨rfl, rfl, rfl⟩
  | some action =>
      dsimp only
      split
      · exact .of_same ⟨rfl, rfl, rfl⟩
      split
      · exact (updateActionStatus_unlinked _ _ rfl).of_kept rfl rfl
      · split
        · exact ((updateActionStatus_unlinked _ _ rfl).same (call_sameReports _ _)).of_kept rfl rfl
        · exact .of_same ⟨rfl, rfl, rfl⟩

private theorem acceptInstantActions_vehicle (c : Config) (adapter : AdapterAnswers)
    (actions : List Action) : ReportsVehicle {} c (c.acceptInstantActions adapter actions) := by
  induction actions generalizing c with
  | nil => exact .refl c
  | cons action actions ih =>
      unfold acceptInstantActions
      cases checkInstantActionExecutable c.agv adapter action with
      | some error =>
          exact .after ((addInstantActionError_vehicle c error).same (observe_sameReports _ _))
            (ih _)
      | none => exact (ih _).of_kept rfl rfl

private theorem processInstantActions_vehicle (c : Config) (message : InstantActions)
    (adapter : AdapterAnswers) : ReportsVehicle {} c (c.processInstantActions message adapter) := by
  unfold processInstantActions
  dsimp only
  split
  · exact .of_same ⟨rfl, rfl, rfl⟩
  split
  · exact acceptInstantActions_vehicle c adapter message.actions
  · exact (acceptInstantActions_vehicle c adapter message.actions).same (call_sameReports _ _)

/-! ## Orders -/

private theorem beginOrder_vehicle (c : Config) (trajectory : TrajectoryHandler) (order : Order)
    (mode : AcceptMode) : ReportsVehicle {} c (c.beginOrder trajectory order mode) := by
  refine ReportsVehicle.of_kept (updateState_vehicle _ ?_ true) rfl rfl
  cases mode <;> exact ⟨rfl, rfl, rfl⟩

private theorem stitchOrder_vehicle (c : Config) (trajectory : TrajectoryHandler)
    (currentOrder : Order) (baseEnd : Node) (order : Order) :
    ReportsVehicle {} c (c.stitchOrder trajectory currentOrder baseEnd order) := by
  refine ReportsVehicle.of_kept (updateState_vehicle _ ?_ true) rfl rfl
  exact ⟨rfl, rfl, rfl⟩

/-- The first node of an order that is begun is processed. -/
private theorem firstNode_vehicle (c : Config) (trajectory : TrajectoryHandler) (order : Order)
    (mode : AcceptMode) : ReportsVehicle {} c
      (match order.nodes.head? with
        | none => (c.beginOrder trajectory order mode).throwTypeError
        | some firstNode => (c.beginOrder trajectory order mode).processNode firstNode none) := by
  have begun := beginOrder_vehicle c trajectory order mode
  cases order.nodes.head? with
  | none => exact begun.same (throwTypeError_sameReports _)
  | some firstNode => exact begun.trans (processNode_vehicle _ firstNode none)

private theorem acceptOrder_vehicle (c : Config) (trajectory : TrajectoryHandler) (order : Order)
    (mode : AcceptMode) : ReportsVehicle {} c (c.acceptOrder trajectory order mode) := by
  cases mode with
  | new => exact firstNode_vehicle c trajectory order .new
  | update => exact firstNode_vehicle c trajectory order .update
  | stitch =>
      unfold acceptOrder
      dsimp only
      cases c.agv.currentOrder with
      | none => exact .of_same ⟨rfl, rfl, rfl⟩
      | some currentOrder =>
          dsimp only
          cases currentBaseEnd currentOrder with
          | none => exact .of_same ⟨rfl, rfl, rfl⟩
          | some baseEnd =>
              have stitched := stitchOrder_vehicle c trajectory currentOrder baseEnd order
              dsimp only
              split
              · exact stitched.same (processEdge_sameReports _ _)
              · exact stitched

private theorem processOrder_vehicle (c : Config) (order : Order) (adapter : AdapterAnswers) :
    ReportsVehicle {} c (c.processOrder order adapter) := by
  unfold processOrder
  dsimp only
  split
  · exact (rejectOrder_vehicle _ _).of_kept rfl rfl
  · refine ((updateState_vehicle _ ?_ true).same (observe_sameReports _ _)).of_kept rfl rfl
    exact ⟨rfl, rfl, rfl⟩
  · exact (acceptOrder_vehicle _ _ _ _).of_kept rfl rfl

/-! ## Steps -/

private theorem resumePausedNode_vehicle (c : Config) : ReportsVehicle {} c c.resumePausedNode := by
  unfold resumePausedNode
  cases c.agv.currentPausedNode with
  | none => exact .refl c
  | some pausedNode =>
      dsimp only
      split
      · exact .of_same ⟨rfl, rfl, rfl⟩
      · exact (processNode_vehicle _ pausedNode none).of_kept rfl rfl

private theorem resume_vehicle (c : Config) (frame : Frame) :
    ReportsVehicle {} c (c.resume frame) := by
  cases frame with
  | adapter => exact .refl c
  | finishEdgeActions edge actions =>
      cases actions with
      | nil => exact .refl c
      | cons action actions => exact .of_same (finishEdgeAction_sameReports c edge action actions)
  | nodeTraversed node traversedEdge => exact nodeTraversed_vehicle c node traversedEdge
  | processNodeAction node action stopDriving =>
      exact .of_same (executeOrderAction_sameReports c action _ stopDriving)
  | processEdgeAction edge action stopDriving =>
      exact .of_same (executeOrderAction_sameReports c action _ stopDriving)
  | cancelOrderActions states hasActionsToBeCanceled =>
      cases states with
      | nil => cases hasActionsToBeCanceled <;> exact .of_same ⟨rfl, rfl, rfl⟩
      | cons state states =>
          unfold resume cancelOrderAction
          dsimp only
          split
          · cases c.agv.currentOrder <;> exact .of_same ⟨rfl, rfl, rfl⟩
          · exact .of_same (call_sameReports c _)
  | processInstantActionChunk afterAction skipInitialHard =>
      exact .of_same (processInstantActionChunk_sameReports c afterAction skipInitialHard)
  | processInstantActions i stopIndex stopDriving =>
      unfold resume
      dsimp only
      split
      · exact (processInstantAction_vehicle _ _ stopDriving).of_kept rfl rfl
      · exact .refl c
  | processInstantAction action stopDriving =>
      exact processInstantAction_vehicle c action stopDriving
  | resumePausedNode => exact resumePausedNode_vehicle c

private theorem updateEdgeTraversed_vehicle (c : Config) (context : TraverseEdgeContext) :
    ReportsVehicle {} c (c.updateEdgeTraversed context) := by
  unfold updateEdgeTraversed
  split
  · exact .refl c
  · split
    · exact .of_same (throwTypeError_sameReports c)
    · exact processNode_vehicle c _ _

private theorem stopped_vehicle (c : Config) (context : StopTraverseContext) :
    ReportsVehicle {} c (c.stopped context) := by
  have cleared : ∀ before : Config, ReportsVehicle {} before
      (before.updateState { nodeStates := some [], edgeStates := some [] } false) := by
    intro before
    refine updateState_vehicle before ?_ false
    exact ⟨rfl, rfl, rfl⟩
  unfold stopped
  dsimp only
  cases c.agv.cancelOrderContext with
  | none => exact ((cleared _).same (throwTypeError_sameReports _)).of_kept rfl rfl
  | some cancelOrderContext =>
      exact ((cleared _).trans (updateActionStatus_unlinked _ _ rfl)).of_kept rfl rfl

private theorem updateErrors_vehicle (c : Config) (error : Error) (mode : UpdateMode)
    (reportImmediately : Bool) :
    ReportsVehicle {} c (c.updateErrors error mode reportImmediately) := by
  unfold updateErrors
  split
  · exact .of_same (throwTypeError_sameReports c)
  · exact .refl c
  · next errors _ =>
    obtain ⟨vehicle, published⟩ :=
      updatePartialState_vehicle c { errors := some errors } reportImmediately
    exact ⟨vehicle, published⟩

/-- Only the adapter supplies a vehicle state, which is the one that is published. -/
theorem perform_vehicle (c : Config) (event : Event) :
    ReportsVehicle event.suppliedState c (c.perform event) := by
  cases event with
  | proceed =>
      simp only [perform, proceed]
      split
      · exact .refl c
      · exact (resume_vehicle _ _).of_kept rfl rfl
  | order order adapter => exact processOrder_vehicle c order adapter
  | invalidOrder payload message =>
      simp only [perform, processInvalidOrder]
      split
      · exact .of_same (throwTypeError_sameReports c)
      · exact rejectOrder_vehicle c _
  | instantActions message adapter => exact processInstantActions_vehicle c message adapter
  | invalidInstantActions payload message =>
      simp only [perform, processInvalidInstantActions]
      split
      · exact .of_same (throwTypeError_sameReports c)
      · exact addInstantActionError_vehicle c _
  | updateActionStatus context change =>
      simp only [perform, adapterReports, updateActionStatusCallback]
      split <;> exact (updateActionStatus_vehicle _ context change).of_kept rfl rfl
  | edgeTraversed context => exact (updateEdgeTraversed_vehicle _ context).of_kept rfl rfl
  | stopped context => exact (stopped_vehicle _ context).of_kept rfl rfl
  | drivingToNextNode nextNode =>
      refine updateState_vehicle c ?_ true
      exact ⟨rfl, rfl, rfl⟩
  | updatePartialState newState reportImmediately =>
      exact updatePartialState_vehicle c newState reportImmediately
  | updateErrors error mode reportImmediately =>
      exact updateErrors_vehicle c error mode reportImmediately
  | publishTimer => exact publishCurrentState_vehicle c
  | published succeeded => cases succeeded <;> exact .nothing rfl rfl
  | connection online =>
      simp only [perform]
      split
      · exact (publishCurrentState_vehicle _).of_kept rfl rfl
      · exact .nothing rfl rfl

end Config

end Vda5050
