import Vda5050.AgvController.Position
import Vda5050.AgvController.Robustness

/-!
# Reported progress

As long as the vehicle is online, the State published last shows how far its order has
got, whatever the order of messages, callbacks and timers. Master control never has to
wait for the next regular State to learn of a traversed node or edge, or of the status
of an order action.
-/

set_option autoImplicit false

namespace Vda5050

open AgvController

/-- A published state shows the progress of the order. States of instant actions that have
been reported as ended are removed without a further report. -/
structure State.ShowsProgress (published : State) (c : Config) : Prop where
  orderId : c.agv.currentState.orderId = published.orderId
  orderUpdateId : c.agv.currentState.orderUpdateId = published.orderUpdateId
  nodeStates : c.agv.currentState.nodeStates = published.nodeStates
  edgeStates : c.agv.currentState.edgeStates = published.edgeStates
  actionStates : ∃ removed : List String,
    c.agv.currentState.actionStates =
      published.actionStates.filter (·.actionId ∉ removed) ∧
    ∀ id ∈ removed, id ∈ c.instantIds ∧
      ∃ state ∈ published.actionStates, state.actionId = id ∧ state.actionStatus.isEnded = true

namespace Config

/-- Errors pass outbound validation. -/
def errorsConform (c : Config) : Bool := c.agv.currentState.errors.all (·.error.conforms)

/-- The current state is the one published last, unless it cannot be published. -/
def IsReported (c : Config) : Prop :=
  c.online = true → c.errorsConform = true → c.published.getLast? = some c.agv.currentState

/-- Nothing is published and the state stays. -/
structure SameReports (c next : Config) : Prop where
  online : next.online = c.online
  published : next.published = c.published
  currentState : next.agv.currentState = c.agv.currentState

/-- Nothing is published, and nothing is lost but states of ended instant actions. -/
structure KeepsProgress (c next : Config) : Prop where
  online : next.online = true → c.online = true
  published : next.published = c.published
  orderId : next.agv.currentState.orderId = c.agv.currentState.orderId
  orderUpdateId : next.agv.currentState.orderUpdateId = c.agv.currentState.orderUpdateId
  nodeStates : next.agv.currentState.nodeStates = c.agv.currentState.nodeStates
  edgeStates : next.agv.currentState.edgeStates = c.agv.currentState.edgeStates
  actionStates : ∃ removed : List String,
    next.agv.currentState.actionStates =
      c.agv.currentState.actionStates.filter (·.actionId ∉ removed) ∧
    ∀ id ∈ removed, id ∈ c.endedPublishCountKeys ∧
      ∃ state ∈ c.agv.currentState.actionStates,
        state.actionId = id ∧ state.actionStatus.isEnded = true

variable {c middle next : Config}

namespace SameReports

theorem refl (c : Config) : SameReports c c := ⟨rfl, rfl, rfl⟩

theorem trans (first : SameReports c middle) (second : SameReports middle next) :
    SameReports c next where
  online := second.online.trans first.online
  published := second.published.trans first.published
  currentState := second.currentState.trans first.currentState

theorem isReported (same : SameReports c next) (reported : c.IsReported) : next.IsReported := by
  unfold IsReported errorsConform at *
  rw [same.online, same.published, same.currentState]
  exact reported

private theorem keepsProgress (same : SameReports c next) : KeepsProgress c next where
  online := fun online => same.online.symm.trans online
  published := same.published
  orderId := by rw [same.currentState]
  orderUpdateId := by rw [same.currentState]
  nodeStates := by rw [same.currentState]
  edgeStates := by rw [same.currentState]
  actionStates := ⟨[], by simp [same.currentState], by simp⟩

/-- What follows a step that reports nothing. -/
private theorem reports_after (reports : next.IsReported ∨ SameReports middle next)
    (same : SameReports c middle) : next.IsReported ∨ SameReports c next :=
  reports.imp (fun reported => reported) same.trans

end SameReports

/-! ## Publications -/

private theorem publishCurrentState_isReported (c : Config) : c.publishCurrentState.IsReported := by
  intro online conforms
  unfold publishCurrentState at online conforms ⊢
  split
  · simp
  · next refused =>
    rw [if_neg refused] at online conforms
    simp [online, errorsConform] at refused conforms
    obtain ⟨error, member, unfit⟩ := refused
    exact absurd (conforms error member) (by simp [unfit])

private theorem updateState_isReported (c : Config) (newPartialState : PartialState) :
    (c.updateState newPartialState true).IsReported :=
  publishCurrentState_isReported _

private theorem addError_isReported (c : Config) (error : Error) : (c.addError error).IsReported :=
  updateState_isReported _ _

private theorem addInstantActionError_isReported (c : Config) (error : Error) :
    (c.addInstantActionError error).IsReported :=
  addError_isReported _ error

theorem observe_sameReports (c : Config) (observation : Observation) :
    SameReports c (c.observe observation) := ⟨rfl, rfl, rfl⟩

theorem call_sameReports (c : Config) (frames : List Frame) : SameReports c (c.call frames) :=
  ⟨rfl, rfl, rfl⟩

theorem throwTypeError_sameReports (c : Config) : SameReports c c.throwTypeError :=
  ⟨rfl, rfl, rfl⟩

private theorem rejectOrder_isReported (c : Config) (error : Error) :
    (c.rejectOrder error).IsReported :=
  (observe_sameReports _ _).isReported (addError_isReported c error)

private theorem reportActionStatus_isReported (c : Config) (context : ActionContext)
    (change : ActionStatusChangeInfo) : (c.reportActionStatus context change).IsReported :=
  (observe_sameReports _ _).isReported (updateState_isReported _ _)

/-! ## Moves along an order -/

private theorem traverseEdge_sameReports (c : Config) (edge : Edge) :
    SameReports c (c.traverseEdge edge) := by
  unfold traverseEdge
  cases c.agv.currentOrder <;> exact ⟨rfl, rfl, rfl⟩

private theorem processEdgeActions_sameReports (c : Config) (edge : Edge)
    (afterAction : Option Action) :
    SameReports c (c.processEdgeActions edge afterAction) := by
  unfold processEdgeActions
  cases scheduleAfter edge.actions afterAction with
  | processed => exact traverseEdge_sameReports c edge
  | hard action => exact call_sameReports c _
  | parallel actions stopDriving => exact call_sameReports c _

theorem processEdge_sameReports (c : Config) (node : Node) :
    SameReports c (c.processEdge node) := by
  unfold processEdge
  cases c.agv.currentOrder with
  | none => exact throwTypeError_sameReports c
  | some order =>
      dsimp only
      cases getTrailingEdge order node with
      | none => exact .refl c
      | some edge =>
          dsimp only
          split
          · exact processEdgeActions_sameReports c edge none
          · exact .refl c

theorem processNodeActions_sameReports (c : Config) (node : Node) (afterAction : Option Action) :
    SameReports c (c.processNodeActions node afterAction) := by
  unfold processNodeActions
  cases scheduleAfter node.actions afterAction with
  | processed => exact processEdge_sameReports c node
  | hard action => exact call_sameReports c _
  | parallel actions stopDriving => exact call_sameReports c _

private theorem nodeTraversed_isReported (c : Config) (node : Node) (traversedEdge : Option Edge) :
    (c.nodeTraversed node traversedEdge).IsReported :=
  ((observe_sameReports _ _).trans (processNodeActions_sameReports _ _ _)).isReported
    (updateState_isReported _ _)

/-- A node is traversed, or the controller waits. -/
private theorem processNode_reports (c : Config) (node : Node) (traversedEdge : Option Edge) :
    (c.processNode node traversedEdge).IsReported ∨
      SameReports c (c.processNode node traversedEdge) := by
  unfold processNode
  split
  · exact .inr (.refl c)
  · split
    · exact .inr ⟨rfl, rfl, rfl⟩
    · cases traversedEdge with
      | none => exact .inl (nodeTraversed_isReported c node none)
      | some edge => exact .inr (call_sameReports c _)

theorem executeOrderAction_sameReports (c : Config) (action : Action) (scope : ActionScope)
    (stopDriving : Bool) : SameReports c (c.executeOrderAction action scope stopDriving) := by
  unfold executeOrderAction
  cases c.agv.currentOrder <;> exact ⟨rfl, rfl, rfl⟩

theorem finishEdgeAction_sameReports (c : Config) (edge : Edge) (action : Action)
    (actions : List Action) : SameReports c (c.finishEdgeAction edge action actions) := by
  unfold finishEdgeAction
  split
  · exact call_sameReports c _
  · cases c.agv.currentOrder <;> exact ⟨rfl, rfl, rfl⟩

/-! ## Actions -/

theorem orderActionCanceled_sameReports (c : Config) : SameReports c c.orderActionCanceled := by
  unfold orderActionCanceled
  cases c.agv.currentOrder with
  | none => exact throwTypeError_sameReports c
  | some order =>
      dsimp only
      split
      · exact ⟨rfl, rfl, rfl⟩
      · exact .refl c

theorem nodeActionEnded_sameReports (c : Config) (node : Node) (action : Action) :
    SameReports c (c.nodeActionEnded node action) := by
  unfold nodeActionEnded
  cases c.agv.continuation node.actions action with
  | processActions => exact processNodeActions_sameReports c node _
  | executeHard nextHardAction => exact call_sameReports c _
  | drive => exact processEdge_sameReports c node
  | wait => exact .refl c

theorem edgeActionEnded_sameReports (c : Config) (edge : Edge) (action : Action) :
    SameReports c (c.edgeActionEnded edge action) := by
  unfold edgeActionEnded
  cases c.agv.continuation edge.actions action with
  | processActions => exact processEdgeActions_sameReports c edge _
  | executeHard nextHardAction => exact call_sameReports c _
  | drive => exact traverseEdge_sameReports c edge
  | wait => exact .refl c

theorem instantActionEnded_sameReports (c : Config) (action : Action) :
    SameReports c (c.instantActionEnded action) := by
  obtain ⟨frames, same, -⟩ := instantActionEnded_eq c action
  rw [same]
  exact ⟨rfl, rfl, rfl⟩

private theorem updateActionStatus_isReported (c : Config) (context : ActionContext)
    (change : ActionStatusChangeInfo) : (c.updateActionStatus context change).IsReported := by
  have reported := reportActionStatus_isReported c context change
  unfold updateActionStatus
  dsimp only
  split
  · exact reported
  · refine SameReports.isReported ?_ reported
    cases context.scope with
    | instant => exact instantActionEnded_sameReports _ _
    | node node =>
        dsimp only
        split
        · exact orderActionCanceled_sameReports _
        · exact nodeActionEnded_sameReports _ _ _
    | edge edge =>
        dsimp only
        split
        · exact orderActionCanceled_sameReports _
        · exact edgeActionEnded_sameReports _ _ _

private theorem processInstantAction_reports (c : Config) (action : Option Action)
    (stopDriving : Bool) :
    (c.processInstantAction action stopDriving).IsReported ∨
      SameReports c (c.processInstantAction action stopDriving) := by
  unfold processInstantAction
  cases action with
  | none => exact .inr ⟨rfl, rfl, rfl⟩
  | some action =>
      dsimp only
      split
      · exact .inr ⟨rfl, rfl, rfl⟩
      split
      · exact .inl (updateActionStatus_isReported _ _ _)
      · split
        · exact .inl ((call_sameReports _ _).isReported (updateActionStatus_isReported _ _ _))
        · exact .inr ⟨rfl, rfl, rfl⟩

theorem processInstantActionChunk_sameReports (c : Config) (afterAction : Option Action)
    (skipInitialHard : Bool) :
    SameReports c (c.processInstantActionChunk afterAction skipInitialHard) := by
  unfold processInstantActionChunk
  dsimp only
  split
  · split
    · exact call_sameReports c _
    · exact .refl c
  · exact call_sameReports c _

/-- Rejected actions are reported, and accepted ones leave what has been reported. -/
private theorem acceptInstantActions_reports (c : Config) (adapter : AdapterAnswers)
    (actions : List Action) :
    (c.acceptInstantActions adapter actions).IsReported ∨
      SameReports c (c.acceptInstantActions adapter actions) := by
  induction actions generalizing c with
  | nil => exact .inr (.refl c)
  | cons action actions ih =>
      unfold acceptInstantActions
      cases checkInstantActionExecutable c.agv adapter action with
      | some error =>
          have reported : ((c.addInstantActionError error).observe
              (.instantActionRejected action)).IsReported :=
            (observe_sameReports _ _).isReported (addInstantActionError_isReported c error)
          exact .inl ((ih _).elim (fun later => later) fun same => same.isReported reported)
      | none =>
          have same : SameReports c (({ c with agv :=
              { c.agv with
                currentInstantActions := c.agv.currentInstantActions ++ [action] } }).observe
                  (.instantActionAccepted action)) := ⟨rfl, rfl, rfl⟩
          exact (ih _).imp (fun later => later) fun later => same.trans later

private theorem processInstantActions_reports (c : Config) (message : InstantActions)
    (adapter : AdapterAnswers) :
    (c.processInstantActions message adapter).IsReported ∨
      SameReports c (c.processInstantActions message adapter) := by
  unfold processInstantActions
  dsimp only
  split
  · exact .inr ⟨rfl, rfl, rfl⟩
  split
  · exact acceptInstantActions_reports c adapter message.actions
  · exact (acceptInstantActions_reports c adapter message.actions).imp
      (call_sameReports _ _).isReported fun same => same.trans (call_sameReports _ _)

/-! ## Orders -/

private theorem acceptOrder_reports (c : Config) (trajectory : TrajectoryHandler) (order : Order)
    (mode : AcceptMode) :
    (c.acceptOrder trajectory order mode).IsReported ∨
      SameReports c (c.acceptOrder trajectory order mode) := by
  have begins : ∀ mode, (c.beginOrder trajectory order mode).IsReported :=
    fun mode => updateState_isReported _ _
  have starts : ∀ mode firstNode,
      ((c.beginOrder trajectory order mode).processNode firstNode none).IsReported :=
    fun mode firstNode => (processNode_reports _ firstNode none).elim (fun traversed => traversed)
      fun same => same.isReported (begins mode)
  cases mode with
  | new =>
      unfold acceptOrder
      dsimp only
      cases order.nodes.head? with
      | none => exact .inl ((throwTypeError_sameReports _).isReported (begins .new))
      | some firstNode => exact .inl (starts .new firstNode)
  | update =>
      unfold acceptOrder
      dsimp only
      cases order.nodes.head? with
      | none => exact .inl ((throwTypeError_sameReports _).isReported (begins .update))
      | some firstNode => exact .inl (starts .update firstNode)
  | stitch =>
      unfold acceptOrder
      dsimp only
      cases c.agv.currentOrder with
      | none => exact .inr ⟨rfl, rfl, rfl⟩
      | some currentOrder =>
          dsimp only
          cases currentBaseEnd currentOrder with
          | none => exact .inr ⟨rfl, rfl, rfl⟩
          | some baseEnd =>
              have stitched : (c.stitchOrder trajectory currentOrder baseEnd order).IsReported :=
                updateState_isReported _ _
              dsimp only
              split
              · exact .inl ((processEdge_sameReports _ _).isReported stitched)
              · exact .inl stitched

private theorem processOrder_reports (c : Config) (order : Order) (adapter : AdapterAnswers) :
    (c.processOrder order adapter).IsReported ∨
      SameReports c (c.processOrder order adapter) := by
  unfold processOrder
  dsimp only
  split
  · exact .inl (rejectOrder_isReported _ _)
  · exact .inl ((observe_sameReports _ _).isReported (updateState_isReported _ _))
  · exact SameReports.reports_after (acceptOrder_reports _ _ _ _) ⟨rfl, rfl, rfl⟩

/-! ## Callbacks and timers -/

private theorem resumePausedNode_reports (c : Config) :
    c.resumePausedNode.IsReported ∨ SameReports c c.resumePausedNode := by
  unfold resumePausedNode
  cases c.agv.currentPausedNode with
  | none => exact .inr (.refl c)
  | some pausedNode =>
      dsimp only
      split
      · exact .inr ⟨rfl, rfl, rfl⟩
      · exact SameReports.reports_after (processNode_reports _ pausedNode none) ⟨rfl, rfl, rfl⟩

private theorem resume_reports (c : Config) (frame : Frame) :
    (c.resume frame).IsReported ∨ SameReports c (c.resume frame) := by
  cases frame with
  | adapter => exact .inr (.refl c)
  | finishEdgeActions edge actions =>
      cases actions with
      | nil => exact .inr (.refl c)
      | cons action actions => exact .inr (finishEdgeAction_sameReports c edge action actions)
  | nodeTraversed node traversedEdge =>
      exact .inl (nodeTraversed_isReported c node traversedEdge)
  | processNodeAction node action stopDriving =>
      exact .inr (executeOrderAction_sameReports c action _ stopDriving)
  | processEdgeAction edge action stopDriving =>
      exact .inr (executeOrderAction_sameReports c action _ stopDriving)
  | cancelOrderActions states hasActionsToBeCanceled =>
      cases states with
      | nil => cases hasActionsToBeCanceled <;> exact .inr ⟨rfl, rfl, rfl⟩
      | cons state states =>
          refine .inr ?_
          unfold resume cancelOrderAction
          dsimp only
          split
          · cases c.agv.currentOrder <;> exact ⟨rfl, rfl, rfl⟩
          · exact call_sameReports c _
  | processInstantActionChunk afterAction skipInitialHard =>
      exact .inr (processInstantActionChunk_sameReports c afterAction skipInitialHard)
  | processInstantActions i stopIndex stopDriving =>
      unfold resume
      dsimp only
      split
      · exact SameReports.reports_after (processInstantAction_reports _ _ stopDriving)
          (call_sameReports _ _)
      · exact .inr (.refl c)
  | processInstantAction action stopDriving =>
      exact processInstantAction_reports c action stopDriving
  | resumePausedNode => exact resumePausedNode_reports c

private theorem stopped_isReported (c : Config) (context : StopTraverseContext)
    (running : (c.stopped context).crashed = false) : (c.stopped context).IsReported := by
  unfold stopped at running ⊢
  dsimp only at running ⊢
  cases canceling : c.agv.cancelOrderContext with
  | none => simp [canceling, throwTypeError] at running
  | some cancelOrderContext => exact updateActionStatus_isReported _ _ _

/-- A vehicle state that is not reported immediately leaves the progress as it is. -/
private theorem updatePartialState_reports (c : Config) {newState : PartialState}
    (vehicle : newState.isVehicleState) (reportImmediately : Bool) :
    (c.updatePartialState newState reportImmediately).IsReported ∨
      KeepsProgress c (c.updatePartialState newState reportImmediately) := by
  cases reportImmediately with
  | true => exact .inl (updateState_isReported _ _)
  | false =>
      have upkeep := updatePartialState_upkeep c vehicle false
      have position := updatePartialState_position c newState false
      obtain ⟨-, noNodes, noEdges, noOrder, noUpdate⟩ := vehicle
      simp only [Position.supply, noNodes, noEdges, noOrder, noUpdate] at position
      refine .inr ⟨fun online => online, rfl, congrArg Position.orderId position,
        congrArg Position.orderUpdateId position, congrArg Position.nodeStates position,
        congrArg Position.edgeStates position, [], upkeep.actionStates, by simp⟩

private theorem updateErrors_reports (c : Config) (error : Error) (mode : UpdateMode)
    (reportImmediately : Bool) :
    (c.updateErrors error mode reportImmediately).IsReported ∨
      KeepsProgress c (c.updateErrors error mode reportImmediately) := by
  unfold updateErrors
  split
  · exact .inr (throwTypeError_sameReports c).keepsProgress
  · exact .inr (SameReports.refl c).keepsProgress
  · exact updatePartialState_reports c (isVehicleState_errors _) reportImmediately

private theorem cleanupInstantActionStates_keepsProgress (c : Config) :
    KeepsProgress c c.cleanupInstantActionStates where
  online := fun online => online
  published := rfl
  orderId := rfl
  orderUpdateId := rfl
  nodeStates := rfl
  edgeStates := rfl
  actionStates :=
    have upkeep := cleanupInstantActionStates_upkeep c
    ⟨_, upkeep.actionStates, upkeep.forgotten⟩

/-- Every step reports the state it leads to, or keeps the progress. -/
private theorem perform_reports (c : Config) {event : Event} (contract : AdapterContract c event)
    (running : (c.perform event).crashed = false) :
    (c.perform event).IsReported ∨ KeepsProgress c (c.perform event) := by
  have weaken : ∀ {c next : Config}, next.IsReported ∨ SameReports c next →
      next.IsReported ∨ KeepsProgress c next :=
    fun reports => reports.imp (fun reported => reported) (·.keepsProgress)
  cases event with
  | proceed =>
      refine weaken ?_
      simp only [perform, proceed]
      split
      · exact .inr (.refl c)
      · exact SameReports.reports_after (resume_reports _ _) ⟨rfl, rfl, rfl⟩
  | order order adapter => exact weaken (processOrder_reports c order adapter)
  | invalidOrder payload message =>
      refine weaken ?_
      simp only [perform, processInvalidOrder]
      split
      · exact .inr (throwTypeError_sameReports c)
      · exact .inl (rejectOrder_isReported c _)
  | instantActions message adapter =>
      exact weaken (processInstantActions_reports c message adapter)
  | invalidInstantActions payload message =>
      refine weaken ?_
      simp only [perform, processInvalidInstantActions]
      split
      · exact .inr (throwTypeError_sameReports c)
      · exact .inl (addInstantActionError_isReported c _)
  | updateActionStatus context change =>
      simp only [perform, adapterReports, updateActionStatusCallback]
      split <;> exact .inl (updateActionStatus_isReported _ _ _)
  | edgeTraversed context =>
      refine weaken ?_
      simp only [perform, updateEdgeTraversed]
      split
      · exact .inr ⟨rfl, rfl, rfl⟩
      · split
        · exact .inr ⟨rfl, rfl, rfl⟩
        · exact SameReports.reports_after (processNode_reports _ _ _) ⟨rfl, rfl, rfl⟩
  | stopped context => exact .inl (stopped_isReported _ context running)
  | drivingToNextNode nextNode => exact .inl (updateState_isReported _ _)
  | updatePartialState newState reportImmediately =>
      exact updatePartialState_reports c contract reportImmediately
  | updateErrors error mode reportImmediately =>
      exact updateErrors_reports c error mode reportImmediately
  | publishTimer => exact .inl (publishCurrentState_isReported c)
  | published succeeded =>
      cases succeeded with
      | false => exact .inr (SameReports.keepsProgress ⟨rfl, rfl, rfl⟩)
      | true =>
          exact .inr { cleanupInstantActionStates_keepsProgress
            { c with inFlight := c.inFlight - 1 } with }
  | connection online =>
      simp only [perform]
      split
      · exact .inl (publishCurrentState_isReported _)
      · next stays =>
        have online : online = true → c.online = true := fun goes => by simpa [goes] using stays
        exact .inr { (SameReports.refl c).keepsProgress with online := online }

/-! ## Runs -/

/-- The State published last, or the initial one if none has been published. -/
def lastPublished (limit : Nat) (c : Config) : State :=
  c.published.getLast?.getD (Config.initial limit).agv.currentState

/-- A state shows the progress of the configuration it is taken from. -/
private theorem showsProgress_refl (c : Config) : c.agv.currentState.ShowsProgress c :=
  ⟨rfl, rfl, rfl, rfl, [], by simp, by simp⟩

private theorem showsProgress_of_isReported {limit : Nat} (reported : c.IsReported)
    (online : c.online = true) (conforms : c.errorsConform = true) :
    (c.lastPublished limit).ShowsProgress c := by
  unfold lastPublished
  rw [reported online conforms]
  exact showsProgress_refl c

private theorem KeepsProgress.showsProgress (keeps : KeepsProgress c next) {published : State}
    (progress : published.ShowsProgress c) (counted : ∀ id ∈ c.endedPublishCountKeys,
      id ∈ c.instantIds) (accepted : c.instantIds ⊆ next.instantIds) :
    published.ShowsProgress next where
  orderId := keeps.orderId.trans progress.orderId
  orderUpdateId := keeps.orderUpdateId.trans progress.orderUpdateId
  nodeStates := keeps.nodeStates.trans progress.nodeStates
  edgeStates := keeps.edgeStates.trans progress.edgeStates
  actionStates := by
    obtain ⟨removed, states, ended⟩ := progress.actionStates
    obtain ⟨removed', states', ended'⟩ := keeps.actionStates
    refine ⟨removed ++ removed', ?_, fun id member => ?_⟩
    · rw [states', states, List.filter_filter]
      refine List.filter_congr fun state _ => ?_
      simp [Bool.and_comm]
    · rcases List.mem_append.mp member with earlier | later
      · exact ⟨accepted (ended id earlier).1, (ended id earlier).2⟩
      · obtain ⟨known, state, listed, same, isEnded⟩ := ended' id later
        rw [states] at listed
        exact ⟨accepted (counted id known), state, (List.mem_filter.mp listed).1, same, isEnded⟩

private theorem instantIds_subset_perform (c : Config) (event : Event) :
    c.instantIds ⊆ (c.perform event).instantIds := by
  obtain ⟨observations, log⟩ := perform_log c event
  intro id member
  unfold instantIds actionIds at member ⊢
  rw [log, acceptedInstantActions_append, List.map_append]
  exact List.mem_append_left _ member

/-- What holds of a controller in use. -/
structure UpToDate (limit : Nat) (c : Config) : Prop where
  robust : c.Robust
  sound : c.Sound
  provenant : c.Provenant
  progress : c.online = true → (c.lastPublished limit).ShowsProgress c

theorem UpToDate.initial (limit : Nat) : UpToDate limit (Config.initial limit) where
  robust := ⟨rfl, by simp [Config.initial, AgvController.initial]⟩
  sound := .initial limit
  provenant := .initial limit
  progress _ := showsProgress_refl _

theorem UpToDate.perform {limit : Nat} (current : UpToDate limit c) {event : Event}
    (contract : AdapterContract c event) (typed : event.SuppliesConforming)
    (tolerates : Tolerates c event) : UpToDate limit (c.perform event) := by
  have robust := current.robust.perform current.sound contract typed tolerates
  refine ⟨robust, current.sound.perform contract tolerates, current.provenant.perform contract,
    fun online => ?_⟩
  rcases perform_reports c contract robust.running with reported | keeps
  · exact showsProgress_of_isReported reported online
      (List.all_eq_true.mpr fun error member => robust.conform error member)
  · have progress := current.progress (keeps.online online)
    unfold lastPublished at progress ⊢
    rw [keeps.published]
    refine keeps.showsProgress progress (fun id member => ?_) (instantIds_subset_perform c event)
    obtain ⟨entry, known, rfl⟩ := List.mem_map.mp member
    exact current.provenant.endedPublishCount entry known

/-- In every state of every run whose steps are tolerated, the State published last shows the
progress of the order while the vehicle is online. -/
theorem lastPublished_showsProgress {limit : Nat} {events : List Event} {c : Config}
    (run : Library.Run Config.step (fun c event => AdapterContract c event ∧ Tolerates c event)
      (Config.initial limit) events c)
    (typed : ∀ event ∈ events, event.SuppliesConforming) (online : c.online = true) :
    (c.lastPublished limit).ShowsProgress c := by
  have current : UpToDate limit c := by
    refine (run.restrict typed).invariant (UpToDate limit) (.initial limit) ?_
    rintro events c event next - current ⟨⟨contract, tolerates⟩, typed⟩ stepped
    obtain ⟨-, rfl⟩ := Config.step_eq_some.mp stepped
    exact current.perform contract typed tolerates
  exact current.progress online

/-- A vehicle that has traversed the edge of its order. -/
def traversal : List Event :=
  [.order (driveOrder "order" [] [] []) {}, .edgeTraversed (driveContext [] [] []), .proceed,
    .proceed, .proceed, .updatePartialState { driving := some false } false]

theorem lastPublished_showsProgress_traversal :
    ∃ c, Library.Run Config.step (fun c event => AdapterContract c event ∧ Tolerates c event)
        (Config.initial 5) traversal c ∧
      c.agv.currentState.nodeStates = [] ∧ (c.lastPublished 5).nodeStates = [] := by
  obtain ⟨c, run, passed⟩ := Library.exists_run_of_execute
    (show ((Library.execute Config.step
      (fun c event => AdapterContract c event ∧ Tolerates c event) (Config.initial 5)
        traversal).any fun c =>
          c.online && c.agv.currentState.nodeStates.isEmpty) = true by decide)
  simp only [Bool.and_eq_true, List.isEmpty_iff] at passed
  have progress := lastPublished_showsProgress run (by
    intro event member
    simp only [traversal, List.mem_cons, List.not_mem_nil, or_false] at member
    rcases member with rfl | rfl | rfl | rfl | rfl | rfl
    · exact AdapterAnswers.conforms_empty
    all_goals simp [Event.SuppliesConforming]) passed.1
  exact ⟨c, run, passed.2, progress.nodeStates ▸ passed.2⟩

end Config

end Vda5050
