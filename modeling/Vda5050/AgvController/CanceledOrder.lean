import Vda5050.AgvController.Cancelation

/-!
# After a cancelation

From the completion of a cancelation until the next order is accepted the
canceled order is left alone, provided that nothing of it is still going on
when the vehicle has stopped and the adapter reports nothing about it later.
-/

set_option autoImplicit false

namespace Vda5050

open AgvController

/-! ## The canceled order -/

/-- A `cancelOrder` action has been reported as finished. -/
def Observation.isCancelCompletion : Observation → Bool
  | .actionStatus context status =>
      context.scope = .instant && context.action.actionType = "cancelOrder" && status = .finished
  | _ => false

/-- Whether an order has been canceled since the last one was accepted. Nothing
of a canceled order is handed over to the adapter. -/
def canceledOrder : Library.Monitor Observation Bool where
  initial := false
  permits
    | true, .executeAction context => context.scope = .instant
    | true, .traverseEdge _ => False
    | _, _ => True
  next canceled observation :=
    match observation with
    | .orderAccepted .. => false
    | _ => canceled || observation.isCancelCompletion

def Config.isCanceled (c : Config) : Bool := canceledOrder.after c.log

/-- Nothing of the order is going on when the vehicle has stopped, and nothing
about it is reported later. -/
def CancelationSettled (c : Config) : Event → Prop
  | .stopped _ => c.agv.hasCancelingOrder →
      (∀ frame ∈ c.stack, !frame.isOrderFrame) ∧
        ∀ state ∈ c.agv.currentState.actionStates,
          !c.agv.isInstantActionState state → state.actionStatus.isEnded
  | .updateActionStatus context _ => c.isCanceled → context.scope = .instant
  | .edgeTraversed context => c.isCanceled →
      c.agv.hasCancelingOrder ∨ c.agv.isPaused ∨ context.endNode.all (!·.released)
  | .proceed =>
      (c.isCanceled → c.stack.head? = some .resumePausedNode →
        c.agv.hasCancelingOrder ∨ c.agv.isPaused ∨ c.agv.currentPausedNode = none) ∧
        DispatchedOnce c .proceed
  | _ => True

instance (c : Config) (event : Event) : Decidable (CancelationSettled c event) :=
  match event with
  | .stopped _ =>
      inferInstanceAs (Decidable (c.agv.hasCancelingOrder →
        (∀ frame ∈ c.stack, !frame.isOrderFrame) ∧
          ∀ state ∈ c.agv.currentState.actionStates,
            !c.agv.isInstantActionState state → state.actionStatus.isEnded))
  | .updateActionStatus context _ =>
      inferInstanceAs (Decidable (c.isCanceled → context.scope = .instant))
  | .edgeTraversed context =>
      inferInstanceAs (Decidable (c.isCanceled →
        c.agv.hasCancelingOrder ∨ c.agv.isPaused ∨ context.endNode.all (!·.released)))
  | .proceed =>
      inferInstanceAs (Decidable ((c.isCanceled → c.stack.head? = some .resumePausedNode →
        c.agv.hasCancelingOrder ∨ c.agv.isPaused ∨ c.agv.currentPausedNode = none) ∧
          DispatchedOnce c .proceed))
  | .order .. | .invalidOrder .. | .instantActions .. | .invalidInstantActions ..
  | .drivingToNextNode _ | .updatePartialState .. | .updateErrors .. | .publishTimer
  | .published _ | .connection _ => isTrue trivial

theorem CancelationSettled.dispatchedOnce {c : Config} {event : Event}
    (settled : CancelationSettled c event) : DispatchedOnce c event := by
  cases event with
  | proceed => exact settled.2
  | _ => trivial

/-- Nothing is left of a canceled order. -/
structure Canceled (c : Config) : Prop where
  nodeStates : c.agv.currentState.nodeStates = []
  edgeStates : c.agv.currentState.edgeStates = []
  stack : ∀ frame ∈ c.stack, !frame.isOrderFrame
  ended : ∀ state ∈ c.agv.currentState.actionStates, state.actionId ∈ c.orderIds →
    state.actionStatus.isEnded

/-! ## Steps that leave a canceled order alone -/

/-- Observations that leave a canceled order alone. -/
def Observation.isOffOrder : Observation → Bool
  | .executeAction context => context.scope = .instant
  | .traverseEdge _ | .orderAccepted .. => false
  | _ => true

/-- The states of an order are reported as before, except for what the adapter
supplies. -/
structure SameOrderState (supplied : PartialState) (c next : Config) : Prop where
  nodeStates : next.agv.currentState.nodeStates = c.agv.currentState.nodeStates
  edgeStates : next.agv.currentState.edgeStates = c.agv.currentState.edgeStates
  lastNodeId : next.agv.currentState.lastNodeId =
    supplied.lastNodeId.getD c.agv.currentState.lastNodeId
  lastNodeSequenceId : next.agv.currentState.lastNodeSequenceId =
    supplied.lastNodeSequenceId.getD c.agv.currentState.lastNodeSequenceId
  actionStates : ∀ state, state.actionId ∈ c.orderIds →
    (state ∈ next.agv.currentState.actionStates ↔ state ∈ c.agv.currentState.actionStates)

/-- Nothing of an order goes on. -/
structure Untouched (supplied : PartialState) (c next : Config) : Prop
    extends SameOrderState supplied c next where
  stack : ∀ frame ∈ next.stack, frame ∈ c.stack ∨ !frame.isOrderFrame
  log : ∃ observations, next.log = c.log ++ observations ∧
    ∀ observation ∈ observations, observation.isOffOrder

private theorem orderIds_of_isOffOrder {c next : Config} {observations : List Observation}
    (log : next.log = c.log ++ observations)
    (off : ∀ observation ∈ observations, observation.isOffOrder) : next.orderIds = c.orderIds := by
  have none : acceptedOrderActions observations = [] := by
    refine List.flatMap_eq_nil_iff.mpr fun observation member => ?_
    have kind := off observation member
    cases observation with
    | orderAccepted => simp [Observation.isOffOrder] at kind
    | _ => rfl
  simp [Config.orderIds, log, none]

namespace Untouched

variable {c middle next : Config} {supplied : PartialState}

theorem orderIds (untouched : Untouched supplied c next) : next.orderIds = c.orderIds := by
  obtain ⟨observations, log, off⟩ := untouched.log
  exact orderIds_of_isOffOrder log off

theorem refl (c : Config) : Untouched {} c c where
  nodeStates := rfl
  edgeStates := rfl
  lastNodeId := rfl
  lastNodeSequenceId := rfl
  actionStates := fun _ _ => .rfl
  stack := fun _ member => .inl member
  log := ⟨[], by simp, by simp⟩

theorem trans (first : Untouched supplied c middle) (second : Untouched {} middle next) :
    Untouched supplied c next := by
  obtain ⟨observations, log, off⟩ := first.log
  obtain ⟨observations', log', off'⟩ := second.log
  refine ⟨⟨second.nodeStates.trans first.nodeStates, second.edgeStates.trans first.edgeStates,
    second.lastNodeId.trans first.lastNodeId,
    second.lastNodeSequenceId.trans first.lastNodeSequenceId, ?_⟩, ?_,
    ⟨observations ++ observations', by simp [log, log'], ?_⟩⟩
  · intro state own
    rw [second.actionStates state (first.orderIds ▸ own), first.actionStates state own]
  · intro frame member
    rcases second.stack frame member with member | other
    · exact first.stack frame member
    · exact .inr other
  · intro observation member
    rcases List.mem_append.mp member with member | member
    · exact off observation member
    · exact off' observation member

private theorem trans_report {later : PartialState} (first : Untouched supplied c middle)
    (second : Untouched later middle next) (nothing : later = {}) : Untouched supplied c next :=
  first.trans (nothing ▸ second)

/-- The same state, with other calls to be made. -/
private theorem of_agv (agv : next.agv.currentState = c.agv.currentState)
    (stack : ∀ frame ∈ next.stack, frame ∈ c.stack ∨ !frame.isOrderFrame)
    (log : ∃ observations, next.log = c.log ++ observations ∧
      ∀ observation ∈ observations, observation.isOffOrder) : Untouched {} c next where
  nodeStates := by rw [agv]
  edgeStates := by rw [agv]
  lastNodeId := by rw [agv]; rfl
  lastNodeSequenceId := by rw [agv]; rfl
  actionStates := fun state _ => by rw [agv]
  stack := stack
  log := log

theorem of_upkeep {removed : List String} (valid : c.Provenant) (distinct : c.DistinctIds)
    (upkeep : Upkeep supplied removed c next) : Untouched supplied c next := by
  obtain ⟨observations, log, upkeeps⟩ := upkeep.log
  refine ⟨⟨upkeep.nodeStates, upkeep.edgeStates, upkeep.lastNodeId, upkeep.lastNodeSequenceId,
    ?_⟩, ?_, ⟨observations, log, fun observation member => ?_⟩⟩
  · intro state own
    rw [upkeep.actionStates, List.mem_filter, decide_eq_true_iff]
    refine and_iff_left fun gone => ?_
    -- only states of instant actions are removed
    obtain ⟨entry, counted, same⟩ := List.mem_map.mp (upkeep.forgotten _ gone).1
    exact distinct.disjoint own (same ▸ Provenance.endedPublishCount valid entry counted)
  · rcases upkeep.stack with ⟨-, stack⟩ | ⟨-, stack⟩
    · exact fun frame member => .inl (stack ▸ member)
    · simp [stack]
  · have kept := upkeeps observation member
    cases observation <;> simp_all [Observation.isUpkeep, Observation.isOffOrder]

end Untouched

theorem Canceled.untouched {c next : Config} {supplied : PartialState} (canceled : Canceled c)
    (untouched : Untouched supplied c next) : Canceled next where
  nodeStates := untouched.nodeStates.trans canceled.nodeStates
  edgeStates := untouched.edgeStates.trans canceled.edgeStates
  stack frame member := by
    rcases untouched.stack frame member with member | other
    · exact canceled.stack frame member
    · exact other
  ended state member own := by
    rw [untouched.orderIds] at own
    exact canceled.ended state ((untouched.actionStates state own).mp member) own

private theorem canceledOrder_append {trace observations : List Observation}
    (accepted : canceledOrder.Accepts trace) (canceled : canceledOrder.after trace = true)
    (off : ∀ observation ∈ observations, observation.isOffOrder) :
    canceledOrder.Accepts (trace ++ observations) ∧
      canceledOrder.after (trace ++ observations) = true := by
  rw [← canceled]
  refine accepted.append fun observation member => ?_
  have kind := off observation member
  rw [canceled]
  cases observation <;> simp_all [Library.Monitor.Stays, canceledOrder, Observation.isOffOrder]

namespace Config

variable (c : Config)

private theorem throwTypeError_untouched : Untouched {} c c.throwTypeError :=
  .of_agv rfl (by simp [throwTypeError]) ⟨[], by simp [throwTypeError], by simp⟩

private theorem processInstantActions_untouched (message : InstantActions)
    (adapter : AdapterAnswers) :
    Untouched {} c (c.processInstantActions message adapter) := by
  obtain ⟨accepted, agv, published, inFlight, observations, same,
    ⟨errors, counts, nextErrorRef, rfl⟩, -, -, kinds⟩ :=
    acceptInstantActions_eq c adapter message.actions
  have accepts : Untouched {} c (c.acceptInstantActions adapter message.actions) := by
    rw [same]
    refine ⟨⟨rfl, rfl, rfl, rfl, fun _ _ => .rfl⟩, fun _ member => .inl member,
      ⟨observations, rfl, fun observation member => ?_⟩⟩
    rcases kinds observation member with ⟨action, rfl⟩ | ⟨action, rfl⟩ <;> rfl
  unfold processInstantActions
  simp only
  split
  · exact throwTypeError_untouched c
  split
  · exact accepts
  · refine accepts.trans (.of_agv rfl ?_ ⟨[], by simp [call], by simp⟩)
    intro frame member
    rcases List.mem_cons.mp member with rfl | member
    · exact .inr rfl
    · exact .inl member

/-- The report of an instant action. -/
private theorem reportActionStatus_untouched {context : ActionContext}
    {change : ActionStatusChangeInfo} (vehicle : change.linkedState.isVehicleState)
    (unique : (c.agv.currentState.actionStates.map (·.actionId)).Nodup)
    (foreign : context.action.actionId ∉ c.orderIds) :
    Untouched change.linkedState c (c.reportActionStatus context change) := by
  obtain ⟨currentState, nextErrorRef, agv, states, nodeStates, edgeStates, lastNodeId,
    lastNodeSequenceId, -⟩ := reportActionStatus_agv c context change vehicle
  refine ⟨⟨by simp only [agv, nodeStates], by simp only [agv, edgeStates],
    by simp only [agv, lastNodeId], by simp only [agv, lastNodeSequenceId], ?_⟩, ?_,
    ⟨_, reportActionStatus_log c context change, by simp [Observation.isOffOrder]⟩⟩
  · simp only [agv, states]
    intro state own
    have different : state.actionId ≠ context.action.actionId := fun same => foreign (same ▸ own)
    rw [mem_newActionStates_iff unique]
    constructor
    · rintro (rfl | ⟨member, -⟩)
      · exact absurd rfl different
      · exact member
    · exact fun member => .inr ⟨member, different⟩
  · rw [reportActionStatus_stack]
    exact fun frame member => .inl member

private theorem instantActionEnded_untouched (action : Action) :
    Untouched {} c (c.instantActionEnded action) := by
  obtain ⟨frames, same, kinds⟩ := instantActionEnded_eq c action
  rw [same]
  refine .of_agv rfl (fun frame member => ?_) ⟨[], by simp [call, dequeue], by simp⟩
  rcases List.mem_append.mp member with member | member
  · rcases kinds frame member with rfl | ⟨next, rfl⟩ <;> exact .inr rfl
  · exact .inl member

private theorem updateInstantActionStatus_untouched {context : ActionContext}
    {change : ActionStatusChangeInfo} (instant : context.scope = .instant)
    (vehicle : change.linkedState.isVehicleState)
    (unique : (c.agv.currentState.actionStates.map (·.actionId)).Nodup)
    (foreign : context.action.actionId ∉ c.orderIds) :
    Untouched change.linkedState c (c.updateActionStatus context change) := by
  have reported := reportActionStatus_untouched c vehicle unique foreign
  unfold updateActionStatus
  simp only [instant]
  split
  · exact reported
  · exact reported.trans (instantActionEnded_untouched _ _)

private theorem adapterReports_untouched {context : ActionContext} {change : ActionStatusChangeInfo}
    (instant : context.scope = .instant) (vehicle : change.linkedState.isVehicleState)
    (unique : (c.agv.currentState.actionStates.map (·.actionId)).Nodup)
    (foreign : context.action.actionId ∉ c.orderIds) :
    Untouched change.linkedState c (c.adapterReports context change) := by
  have report : ∀ frames : List Frame, (∀ frame ∈ frames, !frame.isOrderFrame) →
      Untouched change.linkedState c ((Config.call
        { c with
          executing :=
            if change.actionStatus.isEnded then c.executing.erase context else c.executing }
        frames).updateActionStatus context change) := by
    intro frames other
    have updated := updateInstantActionStatus_untouched (Config.call
      { c with
        executing :=
          if change.actionStatus.isEnded then c.executing.erase context else c.executing }
      frames) instant vehicle unique foreign
    refine { updated with stack := fun frame member => ?_ }
    rcases updated.stack frame member with member | order
    · rcases List.mem_append.mp member with member | member
      · exact .inr (other frame member)
      · exact .inl member
    · exact .inr order
  unfold adapterReports updateActionStatusCallback
  simp only
  split
  · exact report [.resumePausedNode] (by simp [Frame.isOrderFrame])
  · exact report [] (by simp)

/-- An edge that is traversed without the controller taking notice of it. -/
private theorem edgeTraversed_untouched {context : TraverseEdgeContext}
    (ignored : c.agv.hasCancelingOrder ∨ c.agv.isPaused ∨ context.endNode.all (!·.released)) :
    Untouched {} c (c.perform (.edgeTraversed context)) := by
  have traversed : Untouched {} c
      ({ c with traversing := c.traversing.erase context }.observe (.edgeTraversed context)) :=
    .of_agv rfl (fun _ member => .inl member) ⟨_, rfl, by simp [Observation.isOffOrder]⟩
  refine traversed.trans ?_
  simp only [perform, updateEdgeTraversed]
  split
  · exact .refl _
  · next notCanceling =>
    split
    · exact throwTypeError_untouched _
    · next endNode found =>
      unfold processNode
      split
      · exact .refl _
      · next released =>
        split
        · exact .of_agv rfl (fun _ member => .inl member) ⟨[], by simp, by simp⟩
        · next notPaused =>
          rcases ignored with canceling | paused | unreleased
          · exact absurd canceling notCanceling
          · exact absurd paused notPaused
          · simp only [found, Option.all_some] at unreleased
            exact absurd unreleased released

private theorem canceled_untouched (canceled : Canceled c) (context : StopTraverseContext) :
    Untouched {} c (c.canceled context) := by
  refine ⟨⟨?_, ?_, by simp, by simp, fun state _ => by simp⟩, fun frame member => .inl member,
    ⟨_, canceled_log c context, by simp [Observation.isOffOrder]⟩⟩
  · simp [canceled.nodeStates]
  · simp [canceled.edgeStates]

private theorem stopped_untouched (canceled : Canceled c) (valid : c.Provenant)
    (distinct : c.DistinctIds) (unique : (c.agv.currentState.actionStates.map (·.actionId)).Nodup)
    (context : StopTraverseContext) : Untouched {} c (c.stopped context) := by
  have emptied := canceled_untouched c canceled context
  cases pending : c.agv.cancelOrderContext with
  | none =>
      have crashed : c.stopped context = (c.canceled context).throwTypeError := by
        unfold stopped Config.canceled
        simp only [pending]
        rfl
      rw [crashed]
      exact emptied.trans (throwTypeError_untouched _)
  | some cancelOrderContext =>
      obtain ⟨instant, known⟩ := Provenance.cancelOrderContext valid cancelOrderContext pending
      rw [stopped_some pending]
      refine emptied.trans_report (updateInstantActionStatus_untouched _ instant
        PartialState.isVehicleState_empty (by simpa using unique) fun own => ?_) rfl
      rw [emptied.orderIds] at own
      exact distinct.disjoint own known

private theorem drivingToNextNode_untouched (canceled : Canceled c) (nextNode : Node) :
    Untouched {} c (c.drivingToNextNode nextNode) := by
  refine ⟨⟨?_, ?_, ?_, ?_, ?_⟩, ?_, ⟨[], ?_, by simp⟩⟩ <;>
    simp [drivingToNextNode, State.merge, canceled.nodeStates, canceled.edgeStates]
  exact fun frame member => .inl member

/-- A cancelation that is entered when nothing is left to be canceled. -/
private theorem cancelOrder_untouched (canceled : Canceled c)
    (unique : (c.agv.currentState.actionStates.map (·.actionId)).Nodup) {context : ActionContext}
    (foreign : context.action.actionId ∉ c.orderIds) : Untouched {} c (c.cancelOrder context) := by
  have kept : ∀ (agv : AgvController) (state : ActionState), state.actionStatus.isEnded →
      failWaitingAction agv state = state := by
    intro agv state ended
    unfold failWaitingAction
    rw [if_neg]
    rintro both
    obtain ⟨-, waiting⟩ := Bool.and_eq_true_iff.mp both
    rw [of_decide_eq_true waiting] at ended
    cases ended
  have started : Untouched {} c
      ((c.observe (.cancelOrder context c.agv.hasActiveOrder c.agv.hasCancelingOrder)).startCancelation
        context) := by
    refine ⟨⟨rfl, rfl, rfl, rfl, fun state own => ?_⟩, fun frame member => .inl member,
      ⟨_, rfl, by simp [Observation.isOffOrder]⟩⟩
    constructor
    · intro member
      obtain ⟨original, included, rfl⟩ := List.mem_map.mp member
      rw [failWaitingAction_actionId] at own
      rw [kept _ original (canceled.ended original included own)]
      exact included
    · exact fun member =>
        List.mem_map.mpr ⟨state, member, kept _ state (canceled.ended state member own)⟩
  have reported : Untouched {} c (c.cancelationStarted context) := by
    refine started.trans_report (reportActionStatus_untouched _ PartialState.isVehicleState_empty ?_
      (started.orderIds ▸ foreign)) rfl
    show (((c.agv.currentState.actionStates.map _).map _)).Nodup
    rw [List.map_map]
    refine (congrArg List.Nodup (List.map_congr_left fun state _ => ?_)).mpr unique
    exact failWaitingAction_actionId _ state
  rw [cancelOrder_eq]
  refine reported.trans (.of_agv rfl (fun frame member => ?_) ⟨[], by simp [call], by simp⟩)
  rcases List.mem_cons.mp member with rfl | member
  · exact .inr rfl
  · exact .inl member

private theorem processInstantAction_untouched (canceled : Canceled c)
    (unique : (c.agv.currentState.actionStates.map (·.actionId)).Nodup) {action : Option Action}
    (foreign : ∀ next, action = some next → next.actionId ∉ c.orderIds) (stopDriving : Bool) :
    Untouched {} c (c.processInstantAction action stopDriving) := by
  have dispatched : ∀ action, Untouched {} c (c.observe (.instantActionProcessed action)) :=
    fun action => .of_agv rfl (fun _ member => .inl member) ⟨_, rfl, by simp [Observation.isOffOrder]⟩
  unfold processInstantAction
  cases action with
  | none => exact (dispatched none).trans (throwTypeError_untouched _)
  | some action =>
      have counting : Untouched {} c
          ((c.observe (.instantActionProcessed (some action))).resetEndedPublishCount action) :=
        .of_agv rfl (fun _ member => .inl member) ⟨_, rfl, by simp [Observation.isOffOrder]⟩
      have own : action.actionId ∉
          ((c.observe (.instantActionProcessed (some action))).resetEndedPublishCount
            action).orderIds := counting.orderIds ▸ foreign action rfl
      simp only
      split
      · exact (dispatched (some action)).trans (throwTypeError_untouched _)
      split
      · exact counting.trans_report (updateInstantActionStatus_untouched _ rfl
          PartialState.isVehicleState_empty unique own) rfl
      · split
        · exact counting.trans (cancelOrder_untouched _ (canceled.untouched counting) unique own)
        · refine counting.trans (.of_agv rfl (fun frame member => ?_)
            ⟨_, rfl, by simp [Observation.isOffOrder, instantActionContext]⟩)
          rcases List.mem_cons.mp member with rfl | member
          · exact .inr rfl
          · exact .inl member

private theorem resumePausedNode_untouched
    (ignored : c.agv.hasCancelingOrder ∨ c.agv.isPaused ∨ c.agv.currentPausedNode = none) :
    Untouched {} c c.resumePausedNode := by
  have cleared : Untouched {} c { c with agv := { c.agv with currentPausedNode := none } } :=
    .of_agv rfl (fun _ member => .inl member) ⟨[], by simp, by simp⟩
  unfold resumePausedNode
  split
  · exact .refl c
  · next pausedNode found =>
    simp only
    split
    · exact cleared
    · next notCanceling =>
      refine cleared.trans ?_
      unfold processNode
      split
      · exact .refl _
      · split
        · exact .of_agv rfl (fun _ member => .inl member) ⟨[], by simp, by simp⟩
        · next notPaused =>
          rcases ignored with canceling | paused | none
          · exact absurd canceling notCanceling
          · exact absurd paused notPaused
          · simp [found] at none

/-- Pending calls other than those of an order leave the canceled order alone. -/
private theorem resume_untouched (canceled : Canceled c)
    (unique : (c.agv.currentState.actionStates.map (·.actionId)).Nodup) {frame : Frame}
    (other : !frame.isOrderFrame)
    (foreign : ∀ action stopDriving, frame = .processInstantAction (some action) stopDriving →
      action.actionId ∉ c.orderIds)
    (queued : ∀ action ∈ c.agv.currentInstantActions, action.actionId ∉ c.orderIds)
    (ignored : frame = .resumePausedNode →
      c.agv.hasCancelingOrder ∨ c.agv.isPaused ∨ c.agv.currentPausedNode = none) :
    Untouched {} c (c.resume frame) := by
  have called : ∀ (next : Config) (frames : List Frame), next.agv = c.agv →
      next.stack = frames ++ c.stack → (∀ frame ∈ frames, !frame.isOrderFrame) →
      (∃ observations, next.log = c.log ++ observations ∧
        ∀ observation ∈ observations, observation.isOffOrder) → Untouched {} c next := by
    intro next frames agv stack others log
    refine .of_agv (by rw [agv]) (fun frame member => ?_) log
    rw [stack] at member
    rcases List.mem_append.mp member with member | member
    · exact .inr (others frame member)
    · exact .inl member
  cases frame with
  | adapter => exact .refl c
  | finishEdgeActions | nodeTraversed | processNodeAction | processEdgeAction =>
      simp [Frame.isOrderFrame] at other
  | cancelOrderActions states hasActionsToBeCanceled =>
      cases states with
      | nil =>
          cases hasActionsToBeCanceled with
          | true => exact .refl c
          | false =>
              exact called _ [.adapter] rfl rfl (by simp [Frame.isOrderFrame])
                ⟨_, rfl, by simp [Observation.isOffOrder]⟩
      | cons state states =>
          simp only [resume, cancelOrderAction]
          split
          · split
            · exact throwTypeError_untouched c
            · exact called _ [_, _] rfl rfl (by simp [Frame.isOrderFrame])
                ⟨_, rfl, by simp [Observation.isOffOrder]⟩
          · exact called _ [_] rfl rfl (by simp [Frame.isOrderFrame]) ⟨[], by simp [call], by simp⟩
  | processInstantActionChunk afterAction skipInitialHard =>
      simp only [resume, processInstantActionChunk]
      split
      · split
        · exact called _ [_] rfl rfl (by simp [Frame.isOrderFrame]) ⟨[], by simp [call], by simp⟩
        · exact .refl c
      · exact called _ [_] rfl rfl (by simp [Frame.isOrderFrame]) ⟨[], by simp [call], by simp⟩
  | processInstantActions i stopIndex stopDriving =>
      simp only [resume]
      split
      · have pushed : Untouched {} c (c.call [.processInstantActions (i + 1) stopIndex stopDriving]) :=
          called _ [_] rfl rfl (by simp [Frame.isOrderFrame]) ⟨[], by simp [call], by simp⟩
        exact pushed.trans (processInstantAction_untouched _ (canceled.untouched pushed) unique
          (fun action found => queued action (List.mem_of_getElem? found)) stopDriving)
      · exact .refl c
  | processInstantAction action stopDriving =>
      refine processInstantAction_untouched c canceled unique (fun next same => ?_) stopDriving
      exact foreign next stopDriving (by rw [same])
  | resumePausedNode => exact resumePausedNode_untouched c (ignored rfl)

end Config

/-! ## Steps that do not complete a cancelation -/

structure Incomplete (c next : Config) : Prop where
  log : ∃ observations, next.log = c.log ++ observations ∧
    ∀ observation ∈ observations, !observation.isCancelCompletion

namespace Incomplete

variable {c middle next : Config}

theorem trans (first : Incomplete c middle) (second : Incomplete middle next) :
    Incomplete c next := by
  obtain ⟨observations, log, incomplete⟩ := first
  obtain ⟨observations', log', incomplete'⟩ := second
  refine ⟨observations ++ observations', by simp [log, log'], fun observation member => ?_⟩
  rcases List.mem_append.mp member with member | member
  · exact incomplete observation member
  · exact incomplete' observation member

theorem of_log (log : next.log = c.log) : Incomplete c next := ⟨[], by simp [log], by simp⟩

/-- Nothing is observed before the rest of the step. -/
private theorem after_log (later : Incomplete middle next) (log : middle.log = c.log) :
    Incomplete c next :=
  trans (of_log log) later

theorem of_log_concat (observation : Observation) (incomplete : !observation.isCancelCompletion)
    (log : next.log = c.log ++ [observation]) : Incomplete c next :=
  ⟨[observation], log, by simpa using incomplete⟩

private theorem of_keepsQueue (kept : KeepsQueue c next) : Incomplete c next := by
  obtain ⟨observations, log, off⟩ := kept.log
  refine ⟨observations, log, fun observation member => ?_⟩
  have kind := off observation member
  cases observation with
  | actionStatus context status =>
      simp only [Observation.isOffQueue, Observation.isCancelCompletion] at kind ⊢
      cases status <;> simp_all [ActionStatus.isEnded]
  | _ => rfl

private theorem canceledOrder {trace observations : List Observation}
    (accepted : canceledOrder.Accepts trace) (other : canceledOrder.after trace = false)
    (incomplete : ∀ observation ∈ observations, !observation.isCancelCompletion) :
    canceledOrder.Accepts (trace ++ observations) ∧
      canceledOrder.after (trace ++ observations) = false := by
  rw [← other]
  refine accepted.append fun observation member => ?_
  have kind := incomplete observation member
  rw [other]
  cases observation <;> simp_all [Library.Monitor.Stays, Vda5050.canceledOrder]

end Incomplete

namespace Config

variable (c : Config)

private theorem updateInstantActionStatus_incomplete {context : ActionContext}
    {change : ActionStatusChangeInfo} (instant : context.scope = .instant)
    (other : context.action.actionType ≠ "cancelOrder" ∨ change.actionStatus ≠ .finished) :
    Incomplete c (c.updateActionStatus context change) := by
  have reported : Incomplete c (c.reportActionStatus context change) := by
    refine .of_log_concat _ ?_ (reportActionStatus_log c context change)
    rcases other with other | other <;> simp [Observation.isCancelCompletion, other]
  unfold updateActionStatus
  simp only [instant]
  split
  · exact reported
  · obtain ⟨frames, same, -⟩ := instantActionEnded_eq (c.reportActionStatus context change)
      context.action
    rw [same]
    exact reported.trans (.of_log rfl)

private theorem processInstantActions_incomplete (message : InstantActions)
    (adapter : AdapterAnswers) :
    Incomplete c (c.processInstantActions message adapter) := by
  obtain ⟨accepted, agv, published, inFlight, observations, same, -, -, -, kinds⟩ :=
    acceptInstantActions_eq c adapter message.actions
  have accepts : Incomplete c (c.acceptInstantActions adapter message.actions) := by
    rw [same]
    refine ⟨observations, rfl, fun observation member => ?_⟩
    rcases kinds observation member with ⟨action, rfl⟩ | ⟨action, rfl⟩ <;> rfl
  unfold processInstantActions
  simp only
  split
  · exact .of_log rfl
  split
  · exact accepts
  · exact accepts.trans (.of_log rfl)

private theorem cancelOrder_incomplete (context : ActionContext) :
    Incomplete c (c.cancelOrder context) := by
  rw [cancelOrder_eq]
  have entered : Incomplete c
      (c.observe (.cancelOrder context c.agv.hasActiveOrder c.agv.hasCancelingOrder)) :=
    .of_log_concat _ rfl rfl
  have reported : Incomplete
      (c.observe (.cancelOrder context c.agv.hasActiveOrder c.agv.hasCancelingOrder))
      (c.cancelationStarted context) :=
    .of_log_concat (.actionStatus context .running) (by simp [Observation.isCancelCompletion])
      (reportActionStatus_log _ context { actionStatus := .running })
  exact (entered.trans reported).trans (.of_log rfl)

private theorem processInstantAction_incomplete (action : Option Action) (stopDriving : Bool) :
    Incomplete c (c.processInstantAction action stopDriving) := by
  have dispatched : Incomplete c (c.observe (.instantActionProcessed action)) :=
    .of_log_concat _ rfl rfl
  unfold processInstantAction
  cases action with
  | none => exact dispatched.trans (.of_log (by simp [throwTypeError]))
  | some action =>
      simp only
      split
      · exact dispatched.trans (.of_log (by simp [throwTypeError]))
      split
      · next request =>
        have other : action.actionType ≠ "cancelOrder" := by simp [request]
        exact dispatched.trans
          (.after_log (updateInstantActionStatus_incomplete _ rfl (.inl other)) rfl)
      · split
        · exact dispatched.trans (.after_log (cancelOrder_incomplete _ _) rfl)
        · exact dispatched.trans (.of_log_concat _ rfl rfl)

private theorem resume_incomplete (frame : Frame) : Incomplete c (c.resume frame) := by
  by_cases inert : frame.isInert
  · exact .of_keepsQueue (resume_keepsQueue c inert)
  · cases frame with
    | processInstantActions i stopIndex stopDriving =>
        simp only [resume]
        split
        · exact .after_log (processInstantAction_incomplete _ _ _) rfl
        · exact .of_log rfl
    | processInstantAction action stopDriving => exact processInstantAction_incomplete c _ _
    | processInstantActionChunk afterAction skipInitialHard =>
        simp only [resume, processInstantActionChunk]
        split
        · split
          · exact .of_log rfl
          · exact .of_log rfl
        · exact .of_log rfl
    | _ => simp [Frame.isInert] at inert

private theorem adapterReports_incomplete (consistent : Consistent c) {context : ActionContext}
    {change : ActionStatusChangeInfo}
    (contract : AdapterContract c (.updateActionStatus context change)) :
    Incomplete c (c.adapterReports context change) := by
  by_cases instant : context.scope = .instant
  · have other := Provenance.executed consistent.provenant context contract.1 instant
    unfold adapterReports updateActionStatusCallback
    simp only
    split <;> exact .after_log (updateInstantActionStatus_incomplete _ instant (.inl other)) rfl
  · exact .of_keepsQueue (adapterReports_keepsQueue c consistent contract instant)

/-- Only the end of a stop of the vehicle completes a cancelation. -/
private theorem perform_incomplete (consistent : Consistent c) {event : Event}
    (environment : Environment c event)
    (notStopped : ∀ context, event = .stopped context → c.agv.cancelOrderContext = none) :
    Incomplete c (c.perform event) := by
  by_cases upkeep : event.isUpkeep
  · obtain ⟨removed, kept⟩ := perform_upkeep c upkeep environment.1
    exact .of_keepsQueue (.of_upkeep kept)
  · cases event with
    | proceed =>
        simp only [perform, proceed]
        split
        · exact .of_log rfl
        · next frame rest stack =>
          exact .after_log (resume_incomplete _ frame) rfl
    | order order adapter => exact .of_keepsQueue (processOrder_keepsQueue c environment.2)
    | instantActions message adapter => exact processInstantActions_incomplete c message adapter
    | updateActionStatus context change => exact adapterReports_incomplete c consistent environment.1
    | edgeTraversed context => exact .of_keepsQueue (edgeTraversed_keepsQueue c context)
    | stopped context =>
        have none := notStopped context rfl
        exact .after_log (.of_keepsQueue (stopped_keepsQueue
          { c with stopping := c.stopping.erase context } context none)) rfl
    | drivingToNextNode nextNode => exact .of_keepsQueue (drivingToNextNode_keepsQueue c nextNode)
    | _ => exact absurd rfl upkeep

/-! ## Every step -/

/-- Whatever happens after a cancelation leaves the canceled order alone. -/
private theorem perform_untouched (consistent : Consistent c) {event : Event}
    (environment : Environment c event) (settled : CancelationSettled c event)
    (notAccepted : ∀ order adapter, event = .order order adapter →
      ∀ mode, c.agv.decideOrder adapter (allocateNodes c.received order) ≠ .accept mode)
    (isCanceled : c.isCanceled) (canceled : Canceled c) :
    Untouched event.suppliedState c (c.perform event) := by
  have valid := consistent.provenant
  have distinct := consistent.distinct
  by_cases upkeep : event.isUpkeep
  · obtain ⟨removed, kept⟩ := perform_upkeep c upkeep environment.1
    exact .of_upkeep valid distinct kept
  · cases event with
    | proceed =>
        simp only [perform, proceed]
        split
        · exact .refl c
        · next frame rest stack =>
          have popped : Untouched {} c { c with stack := rest } :=
            .of_agv rfl (fun other member => .inl (stack ▸ List.mem_cons_of_mem _ member))
              ⟨[], by simp, by simp⟩
          refine popped.trans (resume_untouched _ (canceled.untouched popped)
            consistent.books.unique (canceled.stack frame (by simp [stack])) ?_ ?_ ?_)
          · rintro action stopDriving rfl own
            have known := Provenance.stack valid (.processInstantAction (some action) stopDriving)
              (by simp [stack])
            exact distinct.disjoint own known
          · exact fun action queued own =>
              distinct.disjoint own (Provenance.instantActions valid action queued)
          · rintro rfl
            exact settled.1 isCanceled (by simp [stack])
    | order order adapter =>
        exact .of_upkeep valid distinct (processOrder_upkeep c (notAccepted order adapter rfl))
    | instantActions message adapter => exact processInstantActions_untouched c message adapter
    | updateActionStatus context change =>
        obtain ⟨held, -, vehicle⟩ := environment.1
        have instant := settled isCanceled
        have known := Provenance.executing valid context held
        simp only [ActionContext.From, instant] at known
        exact adapterReports_untouched c instant vehicle consistent.books.unique
          fun own => distinct.disjoint own known
    | edgeTraversed context => exact edgeTraversed_untouched c (settled isCanceled)
    | stopped context =>
        have called : Untouched {} c { c with stopping := c.stopping.erase context } :=
          .of_agv rfl (fun _ member => .inl member) ⟨[], by simp, by simp⟩
        have valid' : Config.Provenant { c with stopping := c.stopping.erase context } :=
          .of_quiet (.of_log rfl) { valid with }
        exact called.trans (stopped_untouched _ (canceled.untouched called) valid' distinct
          consistent.books.unique context)
    | drivingToNextNode nextNode => exact drivingToNextNode_untouched c canceled nextNode
    | _ => exact absurd rfl upkeep

end Config

/-- The next accepted order ends what a cancelation has begun. -/
private theorem canceledOrder_processOrder {c : Config} {order : Order} {adapter : AdapterAnswers}
    {mode : AcceptMode}
    (decided : c.agv.decideOrder adapter (Config.allocateNodes c.received order) = .accept mode)
    (fresh : DistinctActionIds c (.order order adapter)) (accepted : canceledOrder.Accepts c.log) :
    canceledOrder.Accepts (c.processOrder order adapter).log ∧
      (c.processOrder order adapter).isCanceled = false := by
  obtain ⟨⟨observations, log, incomplete⟩⟩ :=
    Incomplete.of_keepsQueue (Config.processOrder_keepsQueue c fresh)
  obtain ⟨rest, log', -⟩ := Config.processOrder_accept_quiet c decided
  simp only [Config.observe] at log'
  rw [log', List.append_assoc] at log
  have same := List.append_cancel_left log
  have extended : canceledOrder.Accepts
      (c.log ++ [.orderAccepted mode (Config.allocateNodes c.received order)]) := by
    refine Library.Monitor.accepts_concat.mpr ⟨accepted, ?_⟩
    cases canceledOrder.after c.log <;> trivial
  have closed : canceledOrder.after
      (c.log ++ [.orderAccepted mode (Config.allocateNodes c.received order)]) = false := by
    rw [Library.Monitor.after_concat]
    rfl
  unfold Config.isCanceled
  rw [log']
  exact Incomplete.canceledOrder extended closed fun observation member =>
    incomplete observation (same ▸ List.mem_append_right _ member)

/-- What a completed cancelation leaves is kept until the next order is accepted. -/
structure CanceledInvariant (c : Config) : Prop where
  accepted : canceledOrder.Accepts c.log
  canceled : c.isCanceled → Canceled c

theorem CanceledInvariant.initial (limit : Nat) : CanceledInvariant (Config.initial limit) :=
  ⟨Library.Monitor.accepts_nil, nofun⟩

/-- The cancelation is completed when the vehicle has stopped. -/
theorem CanceledInvariant.stopped {c : Config} (valid : c.Provenant) (distinct : c.DistinctIds)
    (unique : (c.agv.currentState.actionStates.map (·.actionId)).Nodup)
    {cancelOrderContext : ActionContext}
    (active : c.agv.cancelOrderContext = some cancelOrderContext) {context : StopTraverseContext}
    (settled : CancelationSettled c (.stopped context)) (accepted : canceledOrder.Accepts c.log)
    (other : c.isCanceled = false) : CanceledInvariant (c.stopped context) := by
  obtain ⟨instant, known⟩ := Provenance.cancelOrderContext valid cancelOrderContext active
  obtain ⟨others, ended⟩ := settled (by simp [hasCancelingOrder, active])
  obtain ⟨actions, frames, same, -⟩ := Config.updateActionStatus_instant (c.canceled context)
    cancelOrderContext { actionStatus := .finished } instant rfl
  have orderIds : (c.canceled context).orderIds = c.orderIds := by
    simp [Config.orderIds, acceptedOrderActions]
  have emptied : Canceled (c.canceled context) := by
    refine ⟨by simp, by simp, others, fun state member own => ?_⟩
    rw [Config.canceled_agv] at member
    rw [orderIds] at own
    have order := valid.not_isInstantActionState distinct own
    exact ended state member (by simpa using order)
  rw [Config.stopped_some active]
  refine ⟨?_, fun _ => emptied.untouched (Config.updateInstantActionStatus_untouched _ instant
    PartialState.isVehicleState_empty (by simpa using unique)
    fun own => distinct.disjoint (orderIds ▸ own) known)⟩
  have log := Config.reportActionStatus_log (c.canceled context) cancelOrderContext
    { actionStatus := .finished }
  have stays : canceledOrder.after (c.log ++ [.stopped context c.agv.cancelOrderContext]) = false := by
    rw [Library.Monitor.after_concat, show canceledOrder.after c.log = false from other]
    rfl
  rw [same]
  show canceledOrder.Accepts (Config.reportActionStatus _ _ _).log
  rw [log, Config.canceled_log, Library.Monitor.accepts_concat, Library.Monitor.accepts_concat,
    stays]
  refine ⟨⟨accepted, ?_⟩, trivial⟩
  cases canceledOrder.after c.log <;> trivial

theorem CanceledInvariant.perform {c : Config} (consistent : Consistent c) {event : Event}
    (environment : Environment c event) (settled : CancelationSettled c event)
    (invariant : CanceledInvariant c) :
    CanceledInvariant (c.perform event) := by
  by_cases accepts : ∃ order adapter mode, event = .order order adapter ∧
      c.agv.decideOrder adapter (Config.allocateNodes c.received order) = .accept mode
  · obtain ⟨order, adapter, mode, rfl, decided⟩ := accepts
    obtain ⟨accepted, closed⟩ :=
      canceledOrder_processOrder decided environment.2 invariant.accepted
    exact ⟨accepted, fun canceled => absurd (canceled.symm.trans closed) (by simp)⟩
  · cases isCanceled : c.isCanceled with
    | true =>
        have untouched := Config.perform_untouched c consistent environment settled
          (fun order adapter same mode decided => accepts ⟨order, adapter, mode, same, decided⟩)
          isCanceled (invariant.canceled isCanceled)
        obtain ⟨observations, log, off⟩ := untouched.log
        refine ⟨?_, fun _ => (invariant.canceled isCanceled).untouched untouched⟩
        rw [log]
        exact (canceledOrder_append invariant.accepted isCanceled off).1
    | false =>
        by_cases stops : ∃ context cancelOrderContext, event = .stopped context ∧
            c.agv.cancelOrderContext = some cancelOrderContext
        · obtain ⟨context, cancelOrderContext, rfl, active⟩ := stops
          have valid' : Config.Provenant { c with stopping := c.stopping.erase context } :=
            .of_quiet (.of_log rfl) { consistent.provenant with }
          exact CanceledInvariant.stopped (c := { c with stopping := c.stopping.erase context })
            valid' consistent.distinct consistent.books.unique active settled invariant.accepted
            isCanceled
        · obtain ⟨observations, log, incomplete⟩ := Config.perform_incomplete c consistent environment
            fun context same => Option.eq_none_iff_forall_ne_some.mpr
              fun cancelOrderContext active => stops ⟨context, cancelOrderContext, same, active⟩
          obtain ⟨accepted, closed⟩ :=
            Incomplete.canceledOrder invariant.accepted isCanceled incomplete
          rw [← log] at accepted closed
          exact ⟨accepted, fun canceled => absurd (canceled.symm.trans closed) (by simp)⟩

/-- There is no active order when nothing is left of it. -/
theorem Canceled.hasActiveOrder {c : Config} (canceled : Canceled c) (valid : c.Provenant)
    (instants : InstantStates c) : c.agv.hasActiveOrder = false := by
  have ended : (c.agv.currentState.actionStates.any fun state =>
      !c.agv.isInstantActionState state && !state.actionStatus.isEnded) = false := by
    refine List.any_eq_false.mpr fun state member => ?_
    rcases Provenance.actionStates valid state member with order | instant
    · simp [canceled.ended state member order]
    · have counted := Config.isInstantActionState_iff.mpr (instants.counted state member instant)
      simp [counted]
  simp [AgvController.hasActiveOrder, canceled.nodeStates, canceled.edgeStates, ended]

/-- A cancelation is final: nothing is handed over to the adapter on behalf of
a canceled order, which is not active any more and reported as it is until the
next order is accepted. -/
theorem cancelation_final_of_settled {limit : Nat} {events : List Event} {c : Config}
    (run : ControllerRun CancelationSettled limit events c) :
    canceledOrder.Accepts c.log ∧
      (c.isCanceled → c.agv.hasActiveOrder = false) ∧
      ∀ event next, Environment c event → CancelationSettled c event → c.step event = some next →
        c.isCanceled → next.isCanceled → SameOrderState event.suppliedState c next := by
  obtain ⟨consistent, instants, invariant⟩ := run.invariant
    (fun c => Consistent c ∧ InstantStates c ∧ CanceledInvariant c)
    ⟨.initial limit, .initial limit, .initial limit⟩
    fun ⟨consistent, instants, invariant⟩ environment settled _ =>
      ⟨consistent.perform environment,
        instants.perform consistent environment settled.dispatchedOnce,
        invariant.perform consistent environment settled⟩
  refine ⟨invariant.accepted, fun isCanceled =>
    (invariant.canceled isCanceled).hasActiveOrder consistent.provenant instants, ?_⟩
  intro event next environment settled stepped isCanceled stillCanceled
  obtain ⟨-, rfl⟩ := Config.step_eq_some.mp stepped
  refine (Config.perform_untouched c consistent environment settled ?_ isCanceled
    (invariant.canceled isCanceled)).toSameOrderState
  rintro order adapter rfl mode decided
  obtain ⟨-, closed⟩ := canceledOrder_processOrder decided environment.2 invariant.accepted
  exact absurd (stillCanceled.symm.trans closed) (by simp)

theorem cancelation_final_of_single :
    ∃ c, ControllerRun CancelationSettled 5
      (eventsToStopTraverse [cancelOrderAction "cancel"] ++
        [.stopped ⟨some (cancelContext "cancel")⟩]) c ∧
      canceledOrder.Accepts c.log ∧ c.agv.hasActiveOrder = false ∧
      SameOrderState {} c (c.perform .proceed) := by
  obtain ⟨c, run, passed⟩ := ControllerRun.exists_of_execute CancelationSettled 5
    (eventsToStopTraverse [cancelOrderAction "cancel"] ++
      [.stopped ⟨some (cancelContext "cancel")⟩])
    (fun c => c.isCanceled && c.enabled .proceed && (c.perform .proceed).isCanceled &&
      decide (CancelationSettled c .proceed)) (by decide)
  simp only [Bool.and_eq_true, decide_eq_true_eq] at passed
  obtain ⟨⟨⟨isCanceled, enabled⟩, stillCanceled⟩, settled⟩ := passed
  obtain ⟨accepted, inactive, frozen⟩ := cancelation_final_of_settled run
  exact ⟨c, run, accepted, inactive isCanceled, frozen .proceed _ ⟨trivial, trivial⟩ settled
    (Config.step_eq_some.mpr ⟨enabled, rfl⟩) isCanceled stillCanceled⟩

def openDoor : Action where
  actionId := "open"
  actionType := "openDoor"
  blockingType := .none

/-- An edge that is reported as traversed after the vehicle has stopped takes
the vehicle on with the canceled order. -/
theorem not_cancelation_final_of_edgeTraversed :
    ∃ c, ControllerRun (fun _ _ => True) 5
      ([.order (driveOrder "order" [] [] [openDoor]) {}, .proceed,
          .instantActions ⟨[cancelOrderAction "cancel"]⟩ {}] ++ List.replicate 5 .proceed ++
        [.stopped ⟨some (cancelContext "cancel")⟩, .proceed,
          .edgeTraversed (driveContext [] [] [openDoor])] ++ List.replicate 4 .proceed) c ∧
        ¬canceledOrder.Accepts c.log := by
  obtain ⟨c, run, passed⟩ := ControllerRun.exists_of_execute (fun _ _ => True) 5
    ([.order (driveOrder "order" [] [] [openDoor]) {}, .proceed,
        .instantActions ⟨[cancelOrderAction "cancel"]⟩ {}] ++ List.replicate 5 .proceed ++
      [.stopped ⟨some (cancelContext "cancel")⟩, .proceed,
        .edgeTraversed (driveContext [] [] [openDoor])] ++ List.replicate 4 .proceed)
    (fun c => canceledOrder.after c.log.dropLast = true && c.log.getLast?.any fun
      | .executeAction context => context.scope ≠ .instant
      | _ => false) (by decide)
  refine ⟨c, run, fun accepted => ?_⟩
  simp only [Bool.and_eq_true, decide_eq_true_eq, Option.any_eq_true] at passed
  obtain ⟨canceled, observation, last, executed⟩ := passed
  rw [← List.dropLast_append_getLast? observation last, Library.Monitor.accepts_concat,
    canceled] at accepted
  cases observation with
  | executeAction context =>
      have order : context.scope ≠ .instant := by simpa using executed
      exact order accepted.2
  | _ => cases executed

end Vda5050
