import Vda5050.AgvController.Cancelation
import Vda5050.AgvController.CancelationStates

/-!
# Reports of action states

Whatever the controller publishes in a step lists the action states as they are
when the step is done. Those of counted instant actions that are not reported in
the step are the same as before.
-/

set_option autoImplicit false

namespace Vda5050

open AgvController

/-- The action states and the counts of instant actions stay, and are published. -/
structure SameActionStates (c next : Config) : Prop where
  actionStates : next.agv.currentState.actionStates = c.agv.currentState.actionStates
  counts : next.agv.instantActionsEndedPublishCount = c.agv.instantActionsEndedPublishCount
  limit : next.agv.finalInstantActionStateChangePublishCount =
    c.agv.finalInstantActionStateChangePublishCount
  published : ∃ states, next.published = c.published ++ states ∧
    ∀ state ∈ states, state.actionStates = c.agv.currentState.actionStates

/-- The action states as they are afterwards are published. Those of counted instant
actions stay, but for the given one. -/
structure ListsActionStates (reported : Option String) (c next : Config) : Prop where
  stays : ∀ state, state.actionId ∈ c.endedPublishCountKeys → state.actionId ∉ reported →
    (state ∈ next.agv.currentState.actionStates ↔ state ∈ c.agv.currentState.actionStates)
  counts : next.agv.instantActionsEndedPublishCount = c.agv.instantActionsEndedPublishCount
  limit : next.agv.finalInstantActionStateChangePublishCount =
    c.agv.finalInstantActionStateChangePublishCount
  published : ∃ states, next.published = c.published ++ states ∧
    ∀ state ∈ states, state.actionStates = next.agv.currentState.actionStates

namespace SameActionStates

variable {c middle next : Config}

theorem of_same (agv : next.agv = c.agv) (published : next.published = c.published) :
    SameActionStates c next := by
  constructor
  case published => exact ⟨[], by simp [published], by simp⟩
  all_goals rw [agv]

theorem refl (c : Config) : SameActionStates c c := of_same rfl rfl

theorem trans (first : SameActionStates c middle) (second : SameActionStates middle next) :
    SameActionStates c next where
  actionStates := second.actionStates.trans first.actionStates
  counts := second.counts.trans first.counts
  limit := second.limit.trans first.limit
  published := by
    obtain ⟨states, published, same⟩ := first.published
    obtain ⟨later, appended, same'⟩ := second.published
    refine ⟨states ++ later, by rw [appended, published, List.append_assoc], ?_⟩
    intro state member
    cases List.mem_append.mp member with
    | inl before => exact same state before
    | inr after => exact (same' state after).trans first.actionStates

/-- Nothing is published on the way along an order. -/
theorem of_move (move : OrderMove c next) (published : next.published = c.published) :
    SameActionStates c next := by
  obtain ⟨_, _, _, _, _, agv⟩ := move.agv
  constructor
  case published => exact ⟨[], by simp [published], by simp⟩
  all_goals rw [agv]

theorem lists (same : SameActionStates c next) : ListsActionStates none c next where
  stays _ _ _ := by rw [same.actionStates]
  counts := same.counts
  limit := same.limit
  published := same.actionStates ▸ same.published

end SameActionStates

namespace ListsActionStates

variable {c middle next : Config} {reported : Option String}

theorem of_same (agv : next.agv = c.agv) (published : next.published = c.published) :
    ListsActionStates reported c next where
  stays _ _ _ := by rw [agv]
  counts := by rw [agv]
  limit := by rw [agv]
  published := ⟨[], by simp [published], by simp⟩

/-- Nothing changes after the report. -/
theorem then_same (first : ListsActionStates reported c middle)
    (second : SameActionStates middle next) : ListsActionStates reported c next where
  stays state counted other := second.actionStates ▸ first.stays state counted other
  counts := second.counts.trans first.counts
  limit := second.limit.trans first.limit
  published := by
    obtain ⟨states, published, same⟩ := first.published
    obtain ⟨later, appended, same'⟩ := second.published
    refine ⟨states ++ later, by rw [appended, published, List.append_assoc], ?_⟩
    intro state member
    rw [second.actionStates]
    cases List.mem_append.mp member with
    | inl before => exact same state before
    | inr after => exact same' state after

/-- Nothing is published before the report, and the states of counted actions stay. -/
theorem after (second : ListsActionStates reported middle next)
    (stays : ∀ state, state.actionId ∈ c.endedPublishCountKeys →
      (state ∈ middle.agv.currentState.actionStates ↔ state ∈ c.agv.currentState.actionStates))
    (counts : middle.agv.instantActionsEndedPublishCount = c.agv.instantActionsEndedPublishCount)
    (limit : middle.agv.finalInstantActionStateChangePublishCount =
      c.agv.finalInstantActionStateChangePublishCount)
    (published : middle.published = c.published) : ListsActionStates reported c next where
  stays state counted other := by
    refine (second.stays state ?_ other).trans (stays state counted)
    rw [Config.endedPublishCountKeys, counts]
    exact counted
  counts := second.counts.trans counts
  limit := second.limit.trans limit
  published := published ▸ second.published

theorem after_same (second : ListsActionStates reported middle next) (agv : middle.agv = c.agv)
    (published : middle.published = c.published) : ListsActionStates reported c next :=
  second.after (fun _ _ => by rw [agv]) (by rw [agv]) (by rw [agv]) published

end ListsActionStates

namespace Config

variable (c : Config)

/-! ## Methods that leave the action states alone -/

private theorem publishCurrentState_sameActionStates :
    SameActionStates c c.publishCurrentState := by
  unfold publishCurrentState
  split
  · exact ⟨rfl, rfl, rfl, [_], rfl, by simp⟩
  · exact .refl c

private theorem updateState_sameActionStates {newPartialState : PartialState}
    (none : newPartialState.actionStates = none) (publishImmediately : Bool) :
    SameActionStates c (c.updateState newPartialState publishImmediately) := by
  have merged : SameActionStates c (c.mergeState newPartialState) :=
    ⟨by simp [mergeState, State.merge, none], rfl, rfl, [], by simp [mergeState], by simp⟩
  cases publishImmediately with
  | false => exact merged
  | true => exact merged.trans (publishCurrentState_sameActionStates _)

private theorem addError_sameActionStates (error : Error) :
    SameActionStates c (c.addError error) := by
  unfold addError
  refine SameActionStates.trans ?_ (updateState_sameActionStates _ rfl true)
  exact ⟨rfl, rfl, rfl, [], by simp, by simp⟩

private theorem addInstantActionError_sameActionStates (error : Error) :
    SameActionStates c (c.addInstantActionError error) := by
  unfold addInstantActionError
  refine SameActionStates.trans ?_ (addError_sameActionStates _ error)
  exact ⟨rfl, rfl, rfl, [], by simp, by simp⟩

private theorem rejectOrder_sameActionStates (error : Error) :
    SameActionStates c (c.rejectOrder error) :=
  (addError_sameActionStates c error).trans (.of_same rfl rfl)

private theorem updatePartialState_sameActionStates {newState : PartialState}
    (vehicle : newState.isVehicleState) (reportImmediately : Bool) :
    SameActionStates c (c.updatePartialState newState reportImmediately) := by
  obtain ⟨errors, cloned⟩ : ∃ errors,
      (c.agv.cloneState newState).1 = { newState with errors := errors } :=
    ⟨_, cloneState_fst c.agv newState⟩
  obtain ⟨nextErrorRef, agv⟩ : ∃ nextErrorRef,
      (c.agv.cloneState newState).2 = { c.agv with nextErrorRef := nextErrorRef } :=
    ⟨_, cloneState_snd c.agv newState⟩
  have none : ({ newState with errors := errors } : PartialState).actionStates = none := vehicle.1
  unfold updatePartialState
  simp only [cloned, agv]
  refine SameActionStates.trans ?_ (updateState_sameActionStates _ none reportImmediately)
  exact ⟨rfl, rfl, rfl, [], by simp, by simp⟩

private theorem updateErrors_sameActionStates (error : Error) (mode : UpdateMode)
    (reportImmediately : Bool) :
    SameActionStates c (c.updateErrors error mode reportImmediately) := by
  unfold updateErrors
  split
  · exact .of_same rfl rfl
  · exact .refl c
  · exact updatePartialState_sameActionStates c (isVehicleState_errors _) reportImmediately

private theorem nodeTraversed_sameActionStates (node : Node) (traversedEdge : Option Edge) :
    SameActionStates c (c.nodeTraversed node traversedEdge) := by
  have processed : ∀ c : Config, SameActionStates c
      ((c.observe (.nodeTraversed node)).processNodeActions node none) := fun c => by
    have observed : SameActionStates c (c.observe (.nodeTraversed node)) := .of_same rfl rfl
    exact observed.trans (.of_move (processNodeActions_move _ node none)
      (processNodeActions_silent _ node none).published)
  unfold nodeTraversed
  exact SameActionStates.trans (updateState_sameActionStates c (by rfl) true) (processed _)

private theorem processNode_sameActionStates (node : Node) (traversedEdge : Option Edge) :
    SameActionStates c (c.processNode node traversedEdge) := by
  unfold processNode
  split
  · exact .refl c
  · split
    · exact ⟨rfl, rfl, rfl, [], by simp, by simp⟩
    · split
      · exact nodeTraversed_sameActionStates c node none
      · exact .of_same rfl rfl

private theorem resumePausedNode_sameActionStates : SameActionStates c c.resumePausedNode := by
  unfold resumePausedNode
  split
  · exact .refl c
  · have cleared : SameActionStates c { c with agv := { c.agv with currentPausedNode := none } } :=
      ⟨rfl, rfl, rfl, [], by simp, by simp⟩
    dsimp only
    split
    · exact cleared
    · exact cleared.trans (processNode_sameActionStates _ _ _)

private theorem updateEdgeTraversed_sameActionStates (context : TraverseEdgeContext) :
    SameActionStates c (c.updateEdgeTraversed context) := by
  unfold updateEdgeTraversed
  split
  · exact .refl c
  · split
    · exact .of_same rfl rfl
    · exact processNode_sameActionStates c _ _

private theorem orderActionCanceled_sameActionStates :
    SameActionStates c c.orderActionCanceled := by
  unfold orderActionCanceled
  split
  · exact .of_same rfl rfl
  · split
    · exact .of_same rfl rfl
    · exact .refl c

/-- What follows the report of an action status. -/
private theorem updateActionStatus_sameActionStates (context : ActionContext)
    (change : ActionStatusChangeInfo) :
    SameActionStates (c.reportActionStatus context change) (c.updateActionStatus context change) := by
  unfold updateActionStatus
  dsimp only
  split
  · exact .refl _
  · cases context.scope with
    | instant =>
        obtain ⟨frames, same, -⟩ :=
          instantActionEnded_eq (c.reportActionStatus context change) context.action
        dsimp only
        rw [same]
        exact ⟨rfl, rfl, rfl, [], by simp [dequeue, call], by simp⟩
    | node node =>
        dsimp only
        split
        · exact orderActionCanceled_sameActionStates _
        · exact .of_move (nodeActionEnded_move _ _ _) (nodeActionEnded_silent _ _ _).published
    | edge edge =>
        dsimp only
        split
        · exact orderActionCanceled_sameActionStates _
        · exact .of_move (edgeActionEnded_move _ _ _) (edgeActionEnded_silent _ _ _).published

private theorem acceptInstantActions_sameActionStates (adapter : AdapterAnswers)
    (actions : List Action) :
    SameActionStates c (c.acceptInstantActions adapter actions) := by
  induction actions generalizing c with
  | nil => exact .refl c
  | cons action actions ih =>
      unfold acceptInstantActions
      split
      · refine SameActionStates.trans ?_ (ih _)
        exact (addInstantActionError_sameActionStates c _).trans (.of_same rfl rfl)
      · refine SameActionStates.trans ?_ (ih _)
        exact ⟨rfl, rfl, rfl, [], by simp [observe], by simp⟩

private theorem processInstantActions_sameActionStates (message : InstantActions)
    (adapter : AdapterAnswers) :
    SameActionStates c (c.processInstantActions message adapter) := by
  have accepted := acceptInstantActions_sameActionStates c adapter message.actions
  unfold processInstantActions
  dsimp only
  split
  · exact .of_same rfl rfl
  split
  · exact accepted
  · exact accepted.trans (.of_same rfl rfl)

/-- Calls that dispatch no instant action. -/
private theorem resume_sameActionStates {frame : Frame} (idle : !frame.isDispatch) :
    SameActionStates c (c.resume frame) := by
  cases frame with
  | adapter => exact .refl c
  | finishEdgeActions edge actions =>
      cases actions with
      | nil => exact .refl c
      | cons action actions =>
          exact .of_move (finishEdgeAction_move c _ _ _) (finishEdgeAction_silent c _ _ _).published
  | nodeTraversed node traversedEdge => exact nodeTraversed_sameActionStates c node traversedEdge
  | processNodeAction node action stopDriving =>
      exact .of_move (executeOrderAction_move c _ (by simp) _)
        (executeOrderAction_silent c _ _ _).published
  | processEdgeAction edge action stopDriving =>
      exact .of_move (executeOrderAction_move c _ (by simp) _)
        (executeOrderAction_silent c _ _ _).published
  | cancelOrderActions states hasActionsToBeCanceled =>
      cases states with
      | nil => cases hasActionsToBeCanceled <;> exact .of_same rfl rfl
      | cons state states =>
          simp only [resume, cancelOrderAction]
          split
          · split <;> exact .of_same rfl rfl
          · exact .of_same rfl rfl
  | processInstantActionChunk afterAction skipInitialHard =>
      simp only [resume, processInstantActionChunk]
      split
      · split <;> exact .of_same rfl rfl
      · exact .of_same rfl rfl
  | processInstantActions i stopIndex stopDriving =>
      have done : ¬i < stopIndex := by simpa [Frame.isDispatch] using idle
      simp only [resume, if_neg done]
      exact .refl c
  | processInstantAction action stopDriving => simp [Frame.isDispatch] at idle
  | resumePausedNode => exact resumePausedNode_sameActionStates c

/-! ## Methods that report -/

private theorem mem_newActionStates_of_ne {states : List ActionState} {reported state : ActionState}
    (other : state.actionId ≠ reported.actionId) :
    state ∈ newActionStates states reported ↔ state ∈ states := by
  have different : state ≠ reported := fun same => other (congrArg _ same)
  rcases newActionStates_eq states reported with ⟨-, same⟩ | ⟨before, old, after, rfl, id, same⟩
  · simp [same, different]
  · have replaced : state ≠ old := fun same => other (same ▸ id)
    simp [same, different, replaced]

private theorem updateState_lists {newPartialState : PartialState} {reported : Option String}
    (stays : ∀ state, state.actionId ∈ c.endedPublishCountKeys → state.actionId ∉ reported →
      (state ∈ (c.agv.currentState.merge newPartialState).actionStates ↔
        state ∈ c.agv.currentState.actionStates)) (publishImmediately : Bool) :
    ListsActionStates reported c (c.updateState newPartialState publishImmediately) := by
  obtain ⟨states, published, same⟩ := updateState_published c newPartialState publishImmediately
  constructor
  case published => exact ⟨states, published, fun state member => by simp [same state member]⟩
  all_goals simp only [updateState_agv]
  exact stays

private theorem reportActionStatus_lists {context : ActionContext} {change : ActionStatusChangeInfo}
    (vehicle : change.linkedState.isVehicleState) :
    ListsActionStates (some context.action.actionId) c (c.reportActionStatus context change) := by
  obtain ⟨currentState, nextErrorRef, agv, states, -⟩ :=
    reportActionStatus_agv c context change vehicle
  constructor
  case stays =>
    rw [agv, states]
    exact fun state _ other =>
      mem_newActionStates_of_ne fun same => other (congrArg some same.symm)
  case counts => rw [agv]
  case limit => rw [agv]
  case published =>
    unfold reportActionStatus
    dsimp only
    generalize ({ c.agv with nextErrorRef := c.agv.nextErrorRef + 1 }).cloneState
      change.linkedState = cloned
    obtain ⟨states, published, same⟩ := updateState_published { c with agv := cloned.2 }
      (PartialState.assign
        { actionStates := some (newActionStates c.agv.currentState.actionStates
            (newActionState context change))
          errors := (actionError context change).map fun error =>
            c.agv.currentState.errors ++ [{ ref := c.agv.nextErrorRef, error := error }] }
        cloned.1) true
    exact ⟨states, published, fun state member => by simp [same state member, observe]⟩

private theorem updateActionStatus_lists {context : ActionContext} {change : ActionStatusChangeInfo}
    (vehicle : change.linkedState.isVehicleState) :
    ListsActionStates (some context.action.actionId) c (c.updateActionStatus context change) :=
  (reportActionStatus_lists c vehicle).then_same (updateActionStatus_sameActionStates c _ _)

private theorem adapterReports_lists {context : ActionContext} {change : ActionStatusChangeInfo}
    (vehicle : change.linkedState.isVehicleState) :
    ListsActionStates (some context.action.actionId) c (c.adapterReports context change) := by
  unfold adapterReports updateActionStatusCallback
  dsimp only
  split <;> exact (updateActionStatus_lists _ vehicle).after_same rfl rfl

/-- Only waiting order actions fail when a cancelation is entered. -/
private theorem cancelOrder_lists (context : ActionContext) :
    ListsActionStates (some context.action.actionId) c (c.cancelOrder context) := by
  have started : ListsActionStates (some context.action.actionId) c
      (((c.observe (.cancelOrder context c.agv.hasActiveOrder
        c.agv.hasCancelingOrder)).startCancelation context).updateActionStatus context
          { actionStatus := .running }) := by
    refine (updateActionStatus_lists _ PartialState.isVehicleState_empty).after ?_ rfl rfl rfl
    have same : ∀ state : ActionState, state.actionId ∈ c.endedPublishCountKeys →
        failWaitingAction { c.agv with cancelOrderContext := some context } state = state :=
      fun state counted => failWaitingAction_of_counted (isInstantActionState_iff.mpr counted)
    intro state counted
    constructor
    · intro member
      obtain ⟨original, included, rfl⟩ := List.mem_map.mp member
      rw [failWaitingAction_actionId] at counted
      exact (same original counted).symm ▸ included
    · exact fun member => List.mem_map.mpr ⟨state, member, same state counted⟩
  exact started.then_same (.of_same rfl rfl)

/-- The action is counted when it is dispatched, and may be reported. -/
theorem processInstantAction_lists (known : c.agv.lacksCurrentOrder = false) (action : Action)
    (stopDriving : Bool) :
    ListsActionStates (some action.actionId)
      ((c.observe (.instantActionProcessed (some action))).resetEndedPublishCount action)
      (c.processInstantAction (some action) stopDriving) := by
  have updated : ∀ (c : Config) (context : ActionContext) (change : ActionStatusChangeInfo),
      change.linkedState.isVehicleState →
      ListsActionStates (some context.action.actionId) c (c.updateActionStatus context change) :=
    fun c _ _ vehicle => updateActionStatus_lists c vehicle
  let context := instantActionContext c.agv action (some stopDriving)
  unfold processInstantAction
  dsimp only
  rw [if_neg (by simpa [observe] using known)]
  split
  · exact updated _ context _ PartialState.isVehicleState_empty
  · split
    · exact cancelOrder_lists _ context
    · exact ⟨fun _ _ _ => .rfl, rfl, rfl, [], by simp [executeInstantAction, call, observe],
        by simp⟩

private theorem stopped_lists (context : StopTraverseContext) :
    ListsActionStates (c.agv.cancelOrderContext.map (·.action.actionId)) c
      (c.stopped context) := by
  unfold stopped
  cases c.agv.cancelOrderContext with
  | none => exact ⟨fun _ _ _ => .rfl, rfl, rfl, [], by simp [throwTypeError, updateState,
      mergeState, observe], by simp⟩
  | some cancelOrderContext =>
      exact (updateActionStatus_lists _ PartialState.isVehicleState_empty).after
        (fun _ _ => .rfl) rfl rfl rfl

/-- Actions of an order that is accepted are not counted. -/
private theorem not_mem_getActionStates {order : Order} {state : ActionState}
    (fresh : ∀ id ∈ actionIds order.releasedActions, id ∉ c.endedPublishCountKeys)
    (counted : state.actionId ∈ c.endedPublishCountKeys) : state ∉ getActionStates order :=
  fun member => fresh _ (actionIds_getActionStates order ▸ List.mem_map_of_mem member) counted

private theorem beginOrder_lists (trajectory : TrajectoryHandler) {order : Order}
    {mode : AcceptMode}
    (fresh : ∀ id ∈ actionIds order.releasedActions, id ∉ c.endedPublishCountKeys)
    (notStitch : mode ≠ .stitch) :
    ListsActionStates none c (c.beginOrder trajectory order mode) := by
  have states := beginOrder_actionStates c trajectory order notStitch
  unfold beginOrder at states ⊢
  refine (updateState_lists _ (fun state counted _ => ?_) true).after (fun _ _ => .rfl) rfl rfl rfl
  simp only [updateState_agv] at states
  have instant : c.agv.isInstantActionState state := isInstantActionState_iff.mpr counted
  have foreign := not_mem_getActionStates c fresh counted
  rw [states, List.mem_append, getInstantActionStates, List.mem_filter]
  exact ⟨fun member => (member.resolve_right foreign).1, fun member => .inl ⟨member, instant⟩⟩

private theorem stitchOrder_lists (trajectory : TrajectoryHandler) (currentOrder : Order)
    (baseEnd : Node) {order : Order}
    (fresh : ∀ id ∈ actionIds order.releasedActions, id ∉ c.endedPublishCountKeys) :
    ListsActionStates none c (c.stitchOrder trajectory currentOrder baseEnd order) := by
  have states := stitchOrder_actionStates c trajectory currentOrder baseEnd order
  unfold stitchOrder at states ⊢
  refine (updateState_lists _ (fun state counted _ => ?_) true).after (fun _ _ => .rfl) rfl rfl rfl
  simp only [updateState_agv] at states
  rw [states, List.mem_append]
  exact or_iff_left (not_mem_getActionStates c fresh counted)

private theorem acceptOrder_lists (trajectory : TrajectoryHandler) {order : Order}
    (mode : AcceptMode)
    (fresh : ∀ id ∈ actionIds order.releasedActions, id ∉ c.endedPublishCountKeys) :
    ListsActionStates none c (c.acceptOrder trajectory order mode) := by
  unfold acceptOrder
  cases mode with
  | new | update =>
      dsimp only
      split
      · exact (beginOrder_lists c trajectory fresh (by simp)).then_same (.of_same rfl rfl)
      · exact (beginOrder_lists c trajectory fresh (by simp)).then_same
          (processNode_sameActionStates _ _ _)
  | stitch =>
      dsimp only
      split
      · exact .of_same rfl rfl
      · split
        · exact .of_same rfl rfl
        · next currentOrder _ _ baseEnd _ =>
          have stitched := stitchOrder_lists c trajectory currentOrder baseEnd fresh
          split
          · exact stitched.then_same
              (.of_move (processEdge_move _ _) (processEdge_silent _ _).published)
          · exact stitched

private theorem processOrder_lists (valid : c.Provenant) {order : Order} {adapter : AdapterAnswers}
    (distinct : DistinctActionIds c (.order order adapter)) :
    ListsActionStates none c (c.processOrder order adapter) := by
  unfold processOrder
  dsimp only
  split
  · exact (rejectOrder_sameActionStates _ _).lists.after_same rfl rfl
  · have discarded : ∀ c : Config,
        ListsActionStates none c ((c.updateState {} true).observe .orderDiscarded) := fun c =>
      (updateState_sameActionStates c rfl true).lists.then_same (.of_same rfl rfl)
    exact (discarded _).after_same rfl rfl
  · next mode decided =>
    refine (acceptOrder_lists _ _ mode fun id member counted => ?_).after_same rfl rfl
    rw [releasedActions_allocateNodes] at member
    obtain ⟨entry, held, rfl⟩ := List.mem_map.mp counted
    exact ((distinct ⟨mode, decided⟩).2 _ member).2 (Provenance.endedPublishCount valid entry held)

end Config

/-- The instant action whose state is reported in a step. -/
def Event.reportedAction (c : Config) : Event → Option String
  | .updateActionStatus context _ => some context.action.actionId
  | .stopped _ => c.agv.cancelOrderContext.map (·.action.actionId)
  | _ => none

/-- Every step but the dispatch of an instant action and the completion of a publication
publishes the action states as they are afterwards, and leaves the counts as they are. -/
theorem Config.perform_lists (c : Config) (valid : c.Provenant) {event : Event}
    (environment : Environment c event)
    (idle : event = .proceed → ∀ frame ∈ c.stack.head?, !frame.isDispatch)
    (other : event ≠ .published true) :
    ListsActionStates (event.reportedAction c) c (c.perform event) := by
  cases event with
  | proceed =>
      simp only [perform, proceed]
      split
      · exact (SameActionStates.refl c).lists
      · next frame rest stack =>
        have quiet := idle rfl frame (by simp [stack])
        exact (resume_sameActionStates { c with stack := rest } quiet).lists.after_same rfl rfl
  | order order adapter => exact processOrder_lists c valid environment.2
  | invalidOrder payload message =>
      simp only [perform, processInvalidOrder]
      split
      · exact .of_same rfl rfl
      · exact (rejectOrder_sameActionStates c _).lists
  | instantActions message adapter =>
      exact (processInstantActions_sameActionStates c message adapter).lists
  | invalidInstantActions payload message =>
      simp only [perform, processInvalidInstantActions]
      split
      · exact .of_same rfl rfl
      · exact (addInstantActionError_sameActionStates c _).lists
  | updateActionStatus context change => exact adapterReports_lists c environment.1.2.2
  | edgeTraversed context =>
      exact (updateEdgeTraversed_sameActionStates _ context).lists.after_same rfl rfl
  | stopped context =>
      exact (stopped_lists { c with stopping := c.stopping.erase context } context).after_same rfl rfl
  | drivingToNextNode nextNode => exact (updateState_sameActionStates c rfl true).lists
  | updatePartialState newState reportImmediately =>
      exact (updatePartialState_sameActionStates c environment.1 reportImmediately).lists
  | updateErrors error mode reportImmediately =>
      exact (updateErrors_sameActionStates c error mode reportImmediately).lists
  | publishTimer => exact (publishCurrentState_sameActionStates c).lists
  | published succeeded =>
      cases succeeded with
      | false => exact .of_same rfl rfl
      | true => exact absurd rfl other
  | connection online =>
      simp only [perform]
      split
      · exact (publishCurrentState_sameActionStates _).lists.after_same rfl rfl
      · exact .of_same rfl rfl

end Vda5050
