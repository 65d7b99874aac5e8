import Vda5050.AgvController.Effects

/-!
# How the log grows

Only a received order or instant actions message adds to the accepted orders
and instant actions.
-/

set_option autoImplicit false

namespace Vda5050

open AgvController

/-- The arguments of the `_processInstantAction` calls made so far. -/
def processedInstantActions (log : List Observation) : List (Option Action) :=
  log.filterMap fun
    | .instantActionProcessed action => some action
    | _ => none

/-- The actionIds of the instant actions that have ended so far. -/
def endedInstantActions (log : List Observation) : List String :=
  log.filterMap fun
    | .actionStatus context status =>
        if context.scope = .instant && status.isEnded then some context.action.actionId else none
    | _ => none

@[simp] theorem processedInstantActions_append (log observations : List Observation) :
    processedInstantActions (log ++ observations) =
      processedInstantActions log ++ processedInstantActions observations :=
  List.filterMap_append

@[simp] theorem endedInstantActions_append (log observations : List Observation) :
    endedInstantActions (log ++ observations) =
      endedInstantActions log ++ endedInstantActions observations :=
  List.filterMap_append

def Observation.isAcceptance : Observation → Bool
  | .orderAccepted .. | .instantActionAccepted _ => true
  | _ => false

/-- Neither an order nor instant actions are received. -/
def Event.isQuiet : Event → Bool
  | .order .. | .instantActions .. => false
  | _ => true

/-- The log has grown by observations other than acceptances. -/
def Config.Quiet (c next : Config) : Prop :=
  ∃ observations, next.log = c.log ++ observations ∧
    ∀ observation ∈ observations, observation.isAcceptance = false

theorem OrderMove.quiet {c next : Config} (move : OrderMove c next) : c.Quiet next := by
  obtain ⟨observations, log, moves⟩ := move.log
  refine ⟨observations, log, fun observation member => ?_⟩
  have order := moves observation member
  cases observation with
  | orderAccepted | instantActionAccepted => simp [Observation.isOrderMove] at order
  | _ => rfl

namespace Config

namespace Quiet

variable {c next : Config}

theorem refl (c : Config) : c.Quiet c := ⟨[], by simp, by simp⟩

theorem of_log (same : next.log = c.log) : c.Quiet next := ⟨[], by simp [same], by simp⟩

theorem of_log_concat (observation : Observation) (grown : next.log = c.log ++ [observation])
    (quiet : observation.isAcceptance = false) : c.Quiet next :=
  ⟨[observation], grown, by simpa using quiet⟩

theorem trans {middle : Config} (first : c.Quiet middle) (second : middle.Quiet next) :
    c.Quiet next := by
  obtain ⟨observations, log, quiet⟩ := first
  obtain ⟨observations', log', quiet'⟩ := second
  refine ⟨observations ++ observations', by simp [log, log'], ?_⟩
  intro observation member
  rcases List.mem_append.mp member with member | member
  · exact quiet observation member
  · exact quiet' observation member

theorem instantIds (quiet : c.Quiet next) : next.instantIds = c.instantIds := by
  obtain ⟨observations, log, quiet⟩ := quiet
  have none : acceptedInstantActions observations = [] := by
    refine List.filterMap_eq_nil_iff.mpr fun observation member => ?_
    have quiet := quiet observation member
    cases observation with
    | instantActionAccepted => simp [Observation.isAcceptance] at quiet
    | _ => rfl
  simp [Config.instantIds, log, none]

theorem orderIds (quiet : c.Quiet next) : next.orderIds = c.orderIds := by
  obtain ⟨observations, log, quiet⟩ := quiet
  have none : acceptedOrderActions observations = [] := by
    refine List.flatMap_eq_nil_iff.mpr fun observation member => ?_
    have quiet := quiet observation member
    cases observation with
    | orderAccepted => simp [Observation.isAcceptance] at quiet
    | _ => rfl
  simp [Config.orderIds, log, none]

end Quiet

variable (c : Config)

theorem reportActionStatus_quiet (context : ActionContext) (change : ActionStatusChangeInfo) :
    c.Quiet (c.reportActionStatus context change) :=
  .of_log_concat _ (reportActionStatus_log c context change) rfl

private theorem instantActionEnded_log (action : Action) :
    (c.instantActionEnded action).log = c.log := by
  obtain ⟨frames, same, -⟩ := instantActionEnded_eq c action
  rw [same]
  rfl

private theorem orderActionCanceled_quiet : c.Quiet c.orderActionCanceled := by
  unfold orderActionCanceled
  split
  · exact .of_log rfl
  · split
    · exact .of_log_concat _ rfl rfl
    · exact .refl c

/-- What follows the report of an action accepts nothing. -/
theorem updateActionStatus_quiet_report (context : ActionContext)
    (change : ActionStatusChangeInfo) :
    (c.reportActionStatus context change).Quiet (c.updateActionStatus context change) := by
  unfold updateActionStatus
  simp only
  split
  · exact .refl _
  · split
    · exact .of_log (instantActionEnded_log _ _)
    · split
      · exact orderActionCanceled_quiet _
      · exact (nodeActionEnded_move _ _ _).quiet
    · split
      · exact orderActionCanceled_quiet _
      · exact (edgeActionEnded_move _ _ _).quiet

private theorem updateActionStatus_quiet (context : ActionContext)
    (change : ActionStatusChangeInfo) :
    c.Quiet (c.updateActionStatus context change) :=
  (reportActionStatus_quiet c context change).trans
    (updateActionStatus_quiet_report c context change)

private theorem cancelOrder_quiet (context : ActionContext) : c.Quiet (c.cancelOrder context) := by
  unfold cancelOrder
  exact (Quiet.of_log_concat _ rfl rfl).trans (updateActionStatus_quiet _ _ _)

/-- There is no action to be dispatched, or no context for it. -/
theorem processInstantAction_throws {action : Option Action}
    (throws : action = none ∨ c.agv.lacksCurrentOrder) (stopDriving : Bool) :
    c.processInstantAction action stopDriving =
      (c.observe (.instantActionProcessed action)).throwTypeError := by
  unfold processInstantAction
  cases action with
  | none => rfl
  | some action => exact if_pos (by simpa [observe] using throws)

/-- What follows the dispatch of an instant action accepts nothing. -/
theorem processInstantAction_quiet_dispatch (action : Option Action) (stopDriving : Bool) :
    (c.observe (.instantActionProcessed action)).Quiet
      (c.processInstantAction action stopDriving) := by
  unfold processInstantAction
  cases action with
  | none => exact .of_log rfl
  | some action =>
      have counted : (c.observe (.instantActionProcessed (some action))).Quiet
          ((c.observe (.instantActionProcessed (some action))).resetEndedPublishCount action) :=
        .of_log rfl
      simp only
      split
      · exact .of_log rfl
      split
      · exact counted.trans (updateActionStatus_quiet _ _ _)
      · split
        · exact counted.trans (cancelOrder_quiet _ _)
        · exact counted.trans (.of_log_concat _ rfl rfl)

private theorem processInstantAction_quiet (action : Option Action) (stopDriving : Bool) :
    c.Quiet (c.processInstantAction action stopDriving) :=
  (Quiet.of_log_concat _ rfl rfl).trans (processInstantAction_quiet_dispatch c action stopDriving)

theorem processInstantActionChunk_log (afterAction : Option Action) (skipInitialHard : Bool) :
    (c.processInstantActionChunk afterAction skipInitialHard).log = c.log := by
  unfold processInstantActionChunk
  simp only
  split
  · split <;> rfl
  · rfl

theorem resume_quiet (frame : Frame) : c.Quiet (c.resume frame) := by
  cases frame with
  | adapter => exact .refl c
  | finishEdgeActions | nodeTraversed | processNodeAction | processEdgeAction =>
      exact (resume_order_move c rfl).quiet
  | cancelOrderActions states hasActionsToBeCanceled =>
      cases states with
      | nil =>
          cases hasActionsToBeCanceled with
          | true => exact .refl c
          | false => exact .of_log_concat _ rfl rfl
      | cons state states =>
          simp only [resume, cancelOrderAction]
          split
          · split
            · exact .of_log rfl
            · exact .of_log_concat _ rfl rfl
          · exact .of_log rfl
  | processInstantActionChunk afterAction skipInitialHard =>
      exact .of_log (processInstantActionChunk_log c afterAction skipInitialHard)
  | processInstantActions i stopIndex stopDriving =>
      simp only [resume]
      split
      · exact processInstantAction_quiet _ _ _
      · exact .refl c
  | processInstantAction action stopDriving => exact processInstantAction_quiet c _ _
  | resumePausedNode =>
      simp only [resume, resumePausedNode]
      split
      · exact .refl c
      · split
        · exact .of_log rfl
        · refine Quiet.trans (.of_log ?_) (processNode_move _ _ _).quiet
          rfl

/-! ## Messages -/

private theorem addError_log (error : Error) : (c.addError error).log = c.log := by
  simp [addError]

theorem rejectOrder_quiet (error : Error) : c.Quiet (c.rejectOrder error) :=
  .of_log_concat (.orderRejected error) (by simp [rejectOrder, observe, addError_log]) rfl

theorem beginOrder_log (trajectory : TrajectoryHandler) (order : Order) (mode : AcceptMode) :
    (c.beginOrder trajectory order mode).log = c.log ++ [.orderAccepted mode order] := by
  simp [beginOrder, observe]

theorem stitchOrder_log (trajectory : TrajectoryHandler) (currentOrder : Order) (baseEnd : Node)
    (order : Order) :
    (c.stitchOrder trajectory currentOrder baseEnd order).log =
      c.log ++ [.orderAccepted .stitch order] := by
  simp [stitchOrder, observe, replaceNode]

/-- Only the acceptance itself is added to the accepted orders. -/
private theorem acceptOrder_log (trajectory : TrajectoryHandler) (order : Order)
    (mode : AcceptMode) :
    (c.observe (.orderAccepted mode order)).Quiet (c.acceptOrder trajectory order mode) := by
  have begun := beginOrder_log c trajectory order mode
  unfold acceptOrder
  split
  · simp only
    split
    · exact .of_log begun
    · exact Quiet.trans (.of_log begun) (processNode_move _ _ _).quiet
  · simp only
    split
    · exact .of_log begun
    · exact Quiet.trans (.of_log begun) (processNode_move _ _ _).quiet
  · split
    · exact .of_log rfl
    · next currentOrder current =>
      split
      · exact .of_log rfl
      · next baseEnd found =>
        have stitched := stitchOrder_log c trajectory currentOrder baseEnd order
        simp only
        split
        · exact Quiet.trans (.of_log stitched) (processEdge_move _ _).quiet
        · exact .of_log stitched

theorem processInvalidOrder_quiet (payload : Json) (message : String) :
    c.Quiet (c.processInvalidOrder payload message) := by
  unfold processInvalidOrder
  split
  · exact .of_log rfl
  · exact rejectOrder_quiet c _

theorem processInvalidInstantActions_quiet (payload : Json) (message : String) :
    c.Quiet (c.processInvalidInstantActions payload message) := by
  unfold processInvalidInstantActions
  split
  · exact .of_log rfl
  · exact .of_log (by simp [addInstantActionError, addError_log])

theorem adapterReports_quiet (context : ActionContext) (change : ActionStatusChangeInfo) :
    c.Quiet (c.adapterReports context change) := by
  unfold adapterReports updateActionStatusCallback
  simp only
  split
  · refine Quiet.trans (.of_log ?_) (updateActionStatus_quiet _ _ _)
    rfl
  · refine Quiet.trans (.of_log ?_) (updateActionStatus_quiet _ _ _)
    rfl

private theorem stopped_quiet (context : StopTraverseContext) : c.Quiet (c.stopped context) := by
  unfold stopped
  simp only
  split
  · exact .of_log_concat (.stopped context c.agv.cancelOrderContext)
      (by simp [throwTypeError, observe]) rfl
  · refine Quiet.trans ?_ (updateActionStatus_quiet _ _ _)
    exact .of_log_concat (.stopped context c.agv.cancelOrderContext) (by simp [observe]) rfl

private theorem updateEdgeTraversed_quiet (context : TraverseEdgeContext) :
    c.Quiet (c.updateEdgeTraversed context) := by
  unfold updateEdgeTraversed
  split
  · exact .refl c
  · split
    · exact .of_log rfl
    · exact (processNode_move _ _ _).quiet

private theorem updatePartialState_log (newState : PartialState) (reportImmediately : Bool) :
    (c.updatePartialState newState reportImmediately).log = c.log := by
  simp [updatePartialState]

private theorem updateErrors_log (error : Error) (mode : UpdateMode) (reportImmediately : Bool) :
    (c.updateErrors error mode reportImmediately).log = c.log := by
  unfold updateErrors
  split
  · rfl
  · rfl
  · exact updatePartialState_log c _ _

theorem proceed_quiet : c.Quiet c.proceed := by
  unfold proceed
  split
  · exact .refl c
  · exact resume_quiet _ _

theorem perform_quiet {event : Event} (quiet : event.isQuiet) : c.Quiet (c.perform event) := by
  cases event with
  | order | instantActions => simp [Event.isQuiet] at quiet
  | proceed => exact proceed_quiet c
  | invalidOrder payload message => exact processInvalidOrder_quiet c payload message
  | invalidInstantActions payload message =>
      exact processInvalidInstantActions_quiet c payload message
  | updateActionStatus context change => exact adapterReports_quiet c context change
  | edgeTraversed context =>
      refine Quiet.trans ?_ (updateEdgeTraversed_quiet _ _)
      exact .of_log_concat (.edgeTraversed context) rfl rfl
  | stopped context => exact stopped_quiet { c with stopping := _ } context
  | drivingToNextNode nextNode => exact .of_log (by simp [perform, drivingToNextNode])
  | updatePartialState newState reportImmediately =>
      exact .of_log (updatePartialState_log c newState reportImmediately)
  | updateErrors error mode reportImmediately =>
      exact .of_log (updateErrors_log c error mode reportImmediately)
  | publishTimer => exact .of_log (by simp [perform])
  | published succeeded => cases succeeded <;> exact .of_log rfl
  | connection online =>
      simp only [perform]
      split <;> exact .of_log (by simp)

/-- The actions of an order are added as it is accepted. -/
theorem processOrder_accept_quiet {order : Order} {adapter : AdapterAnswers} {mode : AcceptMode}
    (decided : c.agv.decideOrder adapter (allocateNodes c.received order) = .accept mode) :
    (c.observe (.orderAccepted mode (allocateNodes c.received order))).Quiet
      (c.processOrder order adapter) := by
  unfold processOrder
  simp only [decided]
  exact acceptOrder_log { c with received := _ } _ _ _

theorem processOrder_quiet {order : Order} {adapter : AdapterAnswers}
    (notAccepted : ∀ mode,
      c.agv.decideOrder adapter (allocateNodes c.received order) ≠ .accept mode) :
    c.Quiet (c.processOrder order adapter) := by
  unfold processOrder
  simp only
  split
  · exact rejectOrder_quiet { c with received := c.received + 1 } _
  · exact .of_log_concat .orderDiscarded (by simp [observe]) rfl
  · next mode decided => exact absurd decided (notAccepted mode)

/-- The actions are checked, unless the context of the first one throws. -/
theorem processInstantActions_log (message : InstantActions) (adapter : AdapterAnswers) :
    c.processInstantActions message adapter = c.throwTypeError ∨
      (c.processInstantActions message adapter).log =
        (c.acceptInstantActions adapter message.actions).log := by
  unfold processInstantActions
  simp only
  split
  · exact .inl rfl
  · split <;> exact .inr rfl

theorem orderIds_observe_orderAccepted (mode : AcceptMode) (order : Order) :
    (c.observe (.orderAccepted mode order)).orderIds =
      c.orderIds ++ actionIds order.releasedActions := by
  simp [orderIds, observe, acceptedOrderActions, actionIds]

theorem instantIds_observe_orderAccepted (mode : AcceptMode) (order : Order) :
    (c.observe (.orderAccepted mode order)).instantIds = c.instantIds := by
  simp [instantIds, observe, acceptedInstantActions, actionIds]

/-- The ids of accepted actions of a message are added in their order. -/
theorem processInstantActions_ids (message : InstantActions) (adapter : AdapterAnswers) :
    ∃ accepted, accepted.Sublist message.actions ∧
      (c.processInstantActions message adapter).instantIds =
        c.instantIds ++ actionIds accepted ∧
      (c.processInstantActions message adapter).orderIds = c.orderIds := by
  obtain ⟨accepted, agv, published, inFlight, observations, same, -, sub, queued, kinds⟩ :=
    acceptInstantActions_eq c adapter message.actions
  rcases processInstantActions_log c message adapter with crashed | log
  · rw [crashed]
    exact ⟨[], List.nil_sublist _, by simp [instantIds, throwTypeError, actionIds], rfl⟩
  rw [same] at log
  have none : acceptedOrderActions observations = [] := by
    refine List.flatMap_eq_nil_iff.mpr fun observation member => ?_
    rcases kinds observation member with ⟨action, rfl⟩ | ⟨action, rfl⟩ <;> rfl
  exact ⟨accepted, sub, by simp [instantIds, log, queued, actionIds],
    by simp [orderIds, log, none]⟩

/-- Nothing is removed from the log. -/
theorem perform_log (event : Event) :
    ∃ observations, (c.perform event).log = c.log ++ observations := by
  by_cases quiet : event.isQuiet
  · obtain ⟨observations, log, -⟩ := perform_quiet c quiet
    exact ⟨observations, log⟩
  · cases event with
    | order order adapter =>
        by_cases accepts : ∃ mode,
            c.agv.decideOrder adapter (allocateNodes c.received order) = .accept mode
        · obtain ⟨mode, decided⟩ := accepts
          obtain ⟨observations, log, -⟩ := processOrder_accept_quiet c decided
          exact ⟨_ :: observations, log.trans (List.append_assoc ..)⟩
        · obtain ⟨observations, log, -⟩ :=
            processOrder_quiet c fun mode decided => accepts ⟨mode, decided⟩
          exact ⟨observations, log⟩
    | instantActions message adapter =>
        obtain ⟨_, _, _, _, observations, same, -⟩ :=
          acceptInstantActions_eq c adapter message.actions
        rcases processInstantActions_log c message adapter with crashed | log
        · exact ⟨[], by simp [perform, crashed, throwTypeError]⟩
        · exact ⟨observations, by rw [perform, log, same]⟩
    | _ => exact absurd rfl quiet

end Config

end Vda5050
