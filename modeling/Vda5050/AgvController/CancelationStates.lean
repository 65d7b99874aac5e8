import Vda5050.AgvController.InstantStates

/-!
# States published during a cancelation

As long as an order is being canceled, the States that are published are about
this order. They list the nodes and edges left before or after the step in
which they are published. The cancelation ends with a State that lists none.
-/

set_option autoImplicit false

namespace Vda5050

open AgvController

/-- The ids of the order a State is about. -/
def State.orderKey (state : State) : String × Nat := (state.orderId, state.orderUpdateId)

/-- A node or an edge of the base is still to be traversed. -/
def State.hasBase (state : State) : Bool :=
  state.nodeStates.any (·.released) || state.edgeStates.any (·.released)

/-- The first state of an action in a State is that of a finished one. -/
def State.reportsFinished (state : State) (actionId : String) : Bool :=
  (state.actionStates.find? (·.actionId = actionId)).any (·.actionStatus = .finished)

/-- The order is being canceled by the action of the given id. -/
def Config.isCanceledBy (c : Config) (actionId : String) : Bool :=
  c.agv.cancelOrderContext.any (·.action.actionId = actionId)

/-- The nodes and edges left are the same. -/
structure State.SameLeft (state other : State) : Prop where
  nodeStates : other.nodeStates = state.nodeStates
  edgeStates : other.edgeStates = state.edgeStates

namespace State.SameLeft

theorem refl (state : State) : state.SameLeft state := ⟨rfl, rfl⟩

theorem trans {state middle other : State} (first : state.SameLeft middle)
    (second : middle.SameLeft other) : state.SameLeft other :=
  ⟨second.nodeStates.trans first.nodeStates, second.edgeStates.trans first.edgeStates⟩

theorem hasBase {state other : State} (same : state.SameLeft other) :
    other.hasBase = state.hasBase := by
  unfold State.hasBase
  rw [same.nodeStates, same.edgeStates]

end State.SameLeft

/-- The States are about the same order, with the same nodes and edges left. -/
structure State.SameOrder (state other : State) : Prop extends State.SameLeft state other where
  orderId : other.orderId = state.orderId
  orderUpdateId : other.orderUpdateId = state.orderUpdateId

namespace State.SameOrder

theorem refl (state : State) : state.SameOrder state := ⟨⟨rfl, rfl⟩, rfl, rfl⟩

theorem trans {state middle other : State} (first : state.SameOrder middle)
    (second : middle.SameOrder other) : state.SameOrder other :=
  ⟨first.toSameLeft.trans second.toSameLeft, second.orderId.trans first.orderId,
    second.orderUpdateId.trans first.orderUpdateId⟩

theorem orderKey {state other : State} (same : state.SameOrder other) :
    other.orderKey = state.orderKey := by
  unfold State.orderKey
  rw [same.orderId, same.orderUpdateId]

/-- Merging a state of the vehicle does not concern the order. -/
theorem merge {newPartialState : PartialState} (state : State)
    (nodeStates : newPartialState.nodeStates = none)
    (edgeStates : newPartialState.edgeStates = none)
    (orderId : newPartialState.orderId = none)
    (orderUpdateId : newPartialState.orderUpdateId = none) :
    state.SameOrder (state.merge newPartialState) := by
  constructor
  · constructor
    · simp [State.merge, nodeStates]
    · simp [State.merge, edgeStates]
  · simp [State.merge, orderId]
  · simp [State.merge, orderUpdateId]

end State.SameOrder

/-! ## Silent steps -/

/-- Nothing is published or changed in the state. -/
structure Silent (c next : Config) : Prop where
  currentState : next.agv.currentState = c.agv.currentState
  cancelOrderContext : next.agv.cancelOrderContext = c.agv.cancelOrderContext
  published : next.published = c.published

namespace Silent

theorem refl (c : Config) : Silent c c := ⟨rfl, rfl, rfl⟩

theorem trans {c middle next : Config} (first : Silent c middle) (second : Silent middle next) :
    Silent c next :=
  ⟨second.currentState.trans first.currentState,
    second.cancelOrderContext.trans first.cancelOrderContext,
    second.published.trans first.published⟩

theorem call (c : Config) (frames : List Frame) : Silent c (c.call frames) := ⟨rfl, rfl, rfl⟩

theorem throwTypeError (c : Config) : Silent c c.throwTypeError := ⟨rfl, rfl, rfl⟩

theorem observe (c : Config) (observation : Observation) : Silent c (c.observe observation) :=
  ⟨rfl, rfl, rfl⟩

private theorem setStack (c : Config) (stack : List Frame) : Silent c { c with stack := stack } :=
  ⟨rfl, rfl, rfl⟩

private theorem setErrorRef (c : Config) (nextErrorRef : Nat) :
    Silent c { c with agv := { c.agv with nextErrorRef := nextErrorRef } } :=
  ⟨rfl, rfl, rfl⟩

end Silent

namespace Config

variable (c : Config)

private theorem traverseEdge_silent (edge : Edge) : Silent c (c.traverseEdge edge) := by
  unfold traverseEdge
  cases c.agv.currentOrder with
  | none => exact .throwTypeError c
  | some order => exact ⟨rfl, rfl, rfl⟩

private theorem processEdgeActions_silent (edge : Edge) (afterAction : Option Action) :
    Silent c (c.processEdgeActions edge afterAction) := by
  unfold processEdgeActions
  cases scheduleAfter edge.actions afterAction with
  | processed => exact traverseEdge_silent c edge
  | hard action => exact .call c _
  | parallel actions stopDriving => exact .call c _

theorem processEdge_silent (node : Node) : Silent c (c.processEdge node) := by
  unfold processEdge
  cases c.agv.currentOrder with
  | none => exact .throwTypeError c
  | some order =>
      dsimp only
      cases getTrailingEdge order node with
      | none => exact .refl c
      | some edge =>
          dsimp only
          split
          · exact processEdgeActions_silent c edge none
          · exact .refl c

theorem processNodeActions_silent (node : Node) (afterAction : Option Action) :
    Silent c (c.processNodeActions node afterAction) := by
  unfold processNodeActions
  cases scheduleAfter node.actions afterAction with
  | processed => exact processEdge_silent c node
  | hard action => exact .call c _
  | parallel actions stopDriving => exact .call c _

theorem executeOrderAction_silent (action : Action) (scope : ActionScope) (stopDriving : Bool) :
    Silent c (c.executeOrderAction action scope stopDriving) := by
  unfold executeOrderAction
  cases c.agv.currentOrder with
  | none => exact .throwTypeError c
  | some order => exact ⟨rfl, rfl, rfl⟩

theorem finishEdgeAction_silent (edge : Edge) (action : Action) (actions : List Action) :
    Silent c (c.finishEdgeAction edge action actions) := by
  unfold finishEdgeAction
  split
  · exact .call c _
  · cases c.agv.currentOrder with
    | none => exact .throwTypeError c
    | some order => exact ⟨rfl, rfl, rfl⟩

private theorem orderActionCanceled_silent : Silent c c.orderActionCanceled := by
  unfold orderActionCanceled
  cases c.agv.currentOrder with
  | none => exact .throwTypeError c
  | some order =>
      dsimp only
      split
      · exact ⟨rfl, rfl, rfl⟩
      · exact .refl c

theorem nodeActionEnded_silent (node : Node) (action : Action) :
    Silent c (c.nodeActionEnded node action) := by
  unfold nodeActionEnded
  cases c.agv.continuation node.actions action with
  | processActions => exact processNodeActions_silent c node _
  | executeHard nextHardAction => exact .call c _
  | drive => exact processEdge_silent c node
  | wait => exact .refl c

theorem edgeActionEnded_silent (edge : Edge) (action : Action) :
    Silent c (c.edgeActionEnded edge action) := by
  unfold edgeActionEnded
  cases c.agv.continuation edge.actions action with
  | processActions => exact processEdgeActions_silent c edge _
  | executeHard nextHardAction => exact .call c _
  | drive => exact traverseEdge_silent c edge
  | wait => exact .refl c

private theorem instantActionEnded_silent (action : Action) :
    Silent c (c.instantActionEnded action) := by
  obtain ⟨frames, same, -⟩ := instantActionEnded_eq c action
  rw [same]
  exact ⟨rfl, rfl, rfl⟩

/-- What follows the report of an action status is silent. -/
theorem updateActionStatus_silent (context : ActionContext) (change : ActionStatusChangeInfo) :
    Silent (c.reportActionStatus context change) (c.updateActionStatus context change) := by
  unfold updateActionStatus
  dsimp only
  split
  · exact .refl _
  · cases context.scope with
    | instant => exact instantActionEnded_silent _ _
    | node node =>
        dsimp only
        split
        · exact orderActionCanceled_silent _
        · exact nodeActionEnded_silent _ node _
    | edge edge =>
        dsimp only
        split
        · exact orderActionCanceled_silent _
        · exact edgeActionEnded_silent _ edge _

theorem cancelOrderAction_silent (state : ActionState) (states : List ActionState)
    (hasActionsToBeCanceled : Bool) :
    Silent c (c.cancelOrderAction state states hasActionsToBeCanceled) := by
  unfold cancelOrderAction
  split
  · cases c.agv.currentOrder with
    | none => exact .throwTypeError c
    | some order => exact ⟨rfl, rfl, rfl⟩
  · exact .call c _

private theorem processInstantActionChunk_silent (afterAction : Option Action)
    (skipInitialHard : Bool) :
    Silent c (c.processInstantActionChunk afterAction skipInitialHard) := by
  unfold processInstantActionChunk
  dsimp only
  split
  · split
    · exact .call c _
    · exact .refl c
  · exact .call c _

end Config

/-! ## Reports on the same order -/

/-- What is published is about the same order, with the same nodes and edges
left, and a cancelation goes on. -/
structure StaysOn (actionId : String) (c next : Config) : Prop where
  canceled : c.isCanceledBy actionId → next.isCanceledBy actionId
  currentState : c.agv.currentState.SameOrder next.agv.currentState
  published : ∃ states, next.published = c.published ++ states ∧
    ∀ state ∈ states, c.agv.currentState.SameOrder state

namespace StaysOn

variable {actionId : String} {c middle next : Config}

private theorem of_silent (silent : Silent c next) : StaysOn actionId c next where
  canceled := by
    unfold Config.isCanceledBy
    rw [silent.cancelOrderContext]
    exact id
  currentState := by
    rw [silent.currentState]
    exact .refl _
  published := ⟨[], by simp [silent.published], by simp⟩

theorem refl (c : Config) : StaysOn actionId c c := of_silent (.refl c)

theorem trans (first : StaysOn actionId c middle) (second : StaysOn actionId middle next) :
    StaysOn actionId c next where
  canceled canceled := second.canceled (first.canceled canceled)
  currentState := first.currentState.trans second.currentState
  published := by
    obtain ⟨states, published, same⟩ := first.published
    obtain ⟨states', published', same'⟩ := second.published
    refine ⟨states ++ states', by rw [published', published, List.append_assoc], ?_⟩
    intro state member
    cases List.mem_append.mp member with
    | inl earlier => exact same state earlier
    | inr later => exact first.currentState.trans (same' state later)

private theorem then_silent (first : StaysOn actionId c middle) (silent : Silent middle next) :
    StaysOn actionId c next :=
  first.trans (of_silent silent)

private theorem after_silent (second : StaysOn actionId middle next) (silent : Silent c middle) :
    StaysOn actionId c next :=
  (of_silent silent).trans second

end StaysOn

namespace Config

variable {actionId : String} (c : Config)

private theorem publishCurrentState_staysOn : StaysOn actionId c c.publishCurrentState where
  canceled := by
    unfold isCanceledBy
    rw [publishCurrentState_agv]
    exact id
  currentState := by
    rw [publishCurrentState_agv]
    exact .refl _
  published := by
    unfold publishCurrentState
    split
    · exact ⟨[_], rfl, by simpa using .refl _⟩
    · exact ⟨[], by simp, by simp⟩

private theorem updateState_staysOn {newPartialState : PartialState}
    (nodeStates : newPartialState.nodeStates = none)
    (edgeStates : newPartialState.edgeStates = none)
    (orderId : newPartialState.orderId = none)
    (orderUpdateId : newPartialState.orderUpdateId = none) (publishImmediately : Bool) :
    StaysOn actionId c (c.updateState newPartialState publishImmediately) where
  canceled := by
    unfold isCanceledBy
    rw [updateState_agv]
    exact id
  currentState := by
    rw [updateState_agv]
    exact .merge _ nodeStates edgeStates orderId orderUpdateId
  published := by
    obtain ⟨states, published, updated⟩ := updateState_published c newPartialState publishImmediately
    refine ⟨states, published, fun state member => ?_⟩
    rw [updated state member]
    exact .merge _ nodeStates edgeStates orderId orderUpdateId

private theorem addError_staysOn (error : Error) : StaysOn actionId c (c.addError error) :=
  (updateState_staysOn _ rfl rfl rfl rfl true).after_silent ⟨rfl, rfl, rfl⟩

private theorem addInstantActionError_staysOn (error : Error) :
    StaysOn actionId c (c.addInstantActionError error) :=
  (addError_staysOn _ error).after_silent ⟨rfl, rfl, rfl⟩

private theorem rejectOrder_staysOn (error : Error) : StaysOn actionId c (c.rejectOrder error) :=
  (addError_staysOn c error).then_silent ⟨rfl, rfl, rfl⟩

private theorem reportActionStatus_staysOn (context : ActionContext)
    {change : ActionStatusChangeInfo} (vehicle : change.linkedState.isVehicleState) :
    StaysOn actionId c (c.reportActionStatus context change) := by
  obtain ⟨-, nodeStates, edgeStates, orderId, orderUpdateId⟩ := vehicle
  have cloned := cloneState_fst { c.agv with nextErrorRef := c.agv.nextErrorRef + 1 }
    change.linkedState
  obtain ⟨nextErrorRef, agv⟩ : ∃ nextErrorRef,
      (({ c.agv with nextErrorRef := c.agv.nextErrorRef + 1 } : AgvController).cloneState
        change.linkedState).2 = { c.agv with nextErrorRef := nextErrorRef } :=
    ⟨_, cloneState_snd _ _⟩
  unfold reportActionStatus
  dsimp only
  rw [agv, cloned]
  apply StaysOn.then_silent _ (.observe _ _)
  apply StaysOn.after_silent _ (.setErrorRef c nextErrorRef)
  apply updateState_staysOn
  · simp [PartialState.assign, nodeStates]
  · simp [PartialState.assign, edgeStates]
  · simp [PartialState.assign, orderId]
  · simp [PartialState.assign, orderUpdateId]

private theorem updateActionStatus_staysOn (context : ActionContext)
    {change : ActionStatusChangeInfo} (vehicle : change.linkedState.isVehicleState) :
    StaysOn actionId c (c.updateActionStatus context change) :=
  (reportActionStatus_staysOn c context vehicle).then_silent
    (updateActionStatus_silent c context change)

private theorem updateActionStatusCallback_staysOn (context : ActionContext)
    {change : ActionStatusChangeInfo} (vehicle : change.linkedState.isVehicleState) :
    StaysOn actionId c (c.updateActionStatusCallback context change) := by
  unfold updateActionStatusCallback
  split
  · exact (updateActionStatus_staysOn _ context vehicle).after_silent (.call _ _)
  · exact updateActionStatus_staysOn c context vehicle

/-- The cancelation is entered by an action, or again by the same one. -/
private theorem cancelOrder_staysOn {context : ActionContext}
    (same : context.action.actionId = actionId) :
    StaysOn actionId c (c.cancelOrder context) ∧ (c.cancelOrder context).isCanceledBy actionId := by
  have started : StaysOn actionId c ((c.observe
      (.cancelOrder context c.agv.hasActiveOrder c.agv.hasCancelingOrder)).startCancelation
        context) := by
    constructor
    · intro _
      simp [isCanceledBy, startCancelation, failWaitingActions, same]
    · exact ⟨⟨rfl, rfl⟩, rfl, rfl⟩
    · exact ⟨[], by simp [startCancelation, observe], by simp⟩
  have running : StaysOn actionId _ (Config.updateActionStatus ((c.observe
      (.cancelOrder context c.agv.hasActiveOrder c.agv.hasCancelingOrder)).startCancelation
        context) context { actionStatus := .running }) :=
    updateActionStatus_staysOn _ context PartialState.isVehicleState_empty
  refine ⟨(started.trans running).then_silent ⟨rfl, rfl, rfl⟩, ?_⟩
  exact running.canceled (by simp [isCanceledBy, startCancelation, failWaitingActions, same])

private theorem processInstantAction_staysOn {action : Option Action} (stopDriving : Bool)
    (same : ∀ other ∈ action, other.actionType = "cancelOrder" → other.actionId = actionId) :
    StaysOn actionId c (c.processInstantAction action stopDriving) := by
  unfold processInstantAction
  cases action with
  | none => exact .of_silent ⟨rfl, rfl, rfl⟩
  | some action =>
      dsimp only
      have counted : Silent c ((c.observe (.instantActionProcessed (some action))).resetEndedPublishCount
          action) := ⟨rfl, rfl, rfl⟩
      split
      · exact .of_silent ⟨rfl, rfl, rfl⟩
      split
      · exact (updateActionStatus_staysOn _ _ PartialState.isVehicleState_empty).after_silent counted
      · split
        · next cancels =>
          exact (cancelOrder_staysOn _ (same action rfl cancels)).1.after_silent counted
        · exact .of_silent (counted.trans ⟨rfl, rfl, rfl⟩)

private theorem acceptInstantActions_staysOn (adapter : AdapterAnswers) (actions : List Action) :
    StaysOn actionId c (c.acceptInstantActions adapter actions) := by
  induction actions generalizing c with
  | nil => exact .refl c
  | cons action actions ih =>
      unfold acceptInstantActions
      cases checkInstantActionExecutable c.agv adapter action with
      | some error =>
          apply StaysOn.trans _ (ih _)
          exact (addInstantActionError_staysOn c error).then_silent ⟨rfl, rfl, rfl⟩
      | none =>
          apply StaysOn.trans _ (ih _)
          exact .of_silent ⟨rfl, rfl, rfl⟩

private theorem processInstantActions_staysOn (message : InstantActions)
    (adapter : AdapterAnswers) :
    StaysOn actionId c (c.processInstantActions message adapter) := by
  have accepted : StaysOn actionId c (c.acceptInstantActions adapter message.actions) :=
    acceptInstantActions_staysOn c adapter message.actions
  unfold processInstantActions
  dsimp only
  split
  · exact .of_silent ⟨rfl, rfl, rfl⟩
  split
  · exact accepted
  · exact accepted.then_silent (.call _ _)

private theorem updatePartialState_staysOn {newState : PartialState}
    (vehicle : newState.isVehicleState) (reportImmediately : Bool) :
    StaysOn actionId c (c.updatePartialState newState reportImmediately) := by
  obtain ⟨-, nodeStates, edgeStates, orderId, orderUpdateId⟩ := vehicle
  obtain ⟨nextErrorRef, agv⟩ : ∃ nextErrorRef,
      (c.agv.cloneState newState).2 = { c.agv with nextErrorRef := nextErrorRef } :=
    ⟨_, cloneState_snd _ _⟩
  unfold updatePartialState
  dsimp only
  rw [agv, cloneState_fst]
  apply StaysOn.after_silent _ (.setErrorRef c nextErrorRef)
  apply updateState_staysOn
  · exact nodeStates
  · exact edgeStates
  · exact orderId
  · exact orderUpdateId

private theorem updateErrors_staysOn (error : Error) (mode : UpdateMode)
    (reportImmediately : Bool) :
    StaysOn actionId c (c.updateErrors error mode reportImmediately) := by
  unfold updateErrors
  cases newErrors c.agv.currentState.errors error mode with
  | error message => exact .of_silent (.throwTypeError c)
  | ok errors =>
      cases errors with
      | none => exact .refl c
      | some errors => exact updatePartialState_staysOn c (isVehicleState_errors errors) _

private theorem cleanupInstantActionStates_staysOn :
    StaysOn actionId c c.cleanupInstantActionStates where
  canceled := id
  currentState := ⟨⟨rfl, rfl⟩, rfl, rfl⟩
  published := ⟨[], by simp [cleanupInstantActionStates], by simp⟩

/-- An order is not accepted while another one is being canceled. -/
private theorem processOrder_staysOn (canceled : c.isCanceledBy actionId) (order : Order)
    (adapter : AdapterAnswers) : StaysOn actionId c (c.processOrder order adapter) := by
  unfold processOrder
  dsimp only
  have counted : Silent c { c with received := c.received + 1 } := ⟨rfl, rfl, rfl⟩
  cases decided : c.agv.decideOrder adapter (allocateNodes c.received order) with
  | reject error => exact (rejectOrder_staysOn _ error).after_silent counted
  | discard =>
      apply StaysOn.then_silent _ (.observe _ .orderDiscarded)
      exact (updateState_staysOn _ rfl rfl rfl rfl true).after_silent counted
  | accept mode =>
      have free := (decideOrder_accept decided).notCanceling
      unfold isCanceledBy at canceled
      cases context : c.agv.cancelOrderContext with
      | none => simp [context] at canceled
      | some context' => simp [hasCancelingOrder, context] at free

end Config

/-! ## Steps of a cancelation -/

/-- What the adapter is required to do while an order is being canceled. Other
orders are not canceled meanwhile, and the last State is not lost. -/
def CancelsAlone (actionId : String) (c : Config) : Event → Prop
  | .proceed => ∀ action ∈ c.nextInstantAction,
      action.actionType = "cancelOrder" → action.actionId = actionId
  | .stopped _ => c.online ∧ c.agv.currentState.errors.all (·.error.conforms)
  | .updateActionStatus _ change => change.linkedState.isVehicleState
  | .updatePartialState newState _ => newState.isVehicleState
  | _ => True

instance (actionId : String) (c : Config) (event : Event) :
    Decidable (CancelsAlone actionId c event) :=
  match event with
  | .proceed => inferInstanceAs (Decidable (∀ _ ∈ c.nextInstantAction, _ → _))
  | .stopped _ => inferInstanceAs (Decidable (_ ∧ _))
  | .updateActionStatus _ change => inferInstanceAs (Decidable change.linkedState.isVehicleState)
  | .updatePartialState newState _ => inferInstanceAs (Decidable newState.isVehicleState)
  | .order .. | .invalidOrder .. | .instantActions .. | .invalidInstantActions ..
  | .edgeTraversed _ | .drivingToNextNode _ | .updateErrors .. | .publishTimer
  | .published _ | .connection _ => isTrue trivial

/-- The cancelation goes on, and States about the order are published. -/
structure GoesOn (actionId : String) (c next : Config) : Prop where
  canceled : next.isCanceledBy actionId
  orderKey : next.agv.currentState.orderKey = c.agv.currentState.orderKey
  published : ∃ states, next.published = c.published ++ states ∧ ∀ state ∈ states,
    state.orderKey = c.agv.currentState.orderKey ∧
      (c.agv.currentState.SameLeft state ∨ next.agv.currentState.SameLeft state)

namespace GoesOn

variable {actionId : String} {c middle next : Config}

private theorem of_staysOn (canceled : c.isCanceledBy actionId) (stays : StaysOn actionId c next) :
    GoesOn actionId c next where
  canceled := stays.canceled canceled
  orderKey := stays.currentState.orderKey
  published := by
    obtain ⟨states, published, same⟩ := stays.published
    exact ⟨states, published, fun state member =>
      ⟨(same state member).orderKey, .inl (same state member).toSameLeft⟩⟩

private theorem then_silent (first : GoesOn actionId c middle) (silent : Silent middle next) :
    GoesOn actionId c next := by
  obtain ⟨canceled, orderKey, published⟩ := first
  constructor
  · unfold Config.isCanceledBy at canceled ⊢
    rwa [silent.cancelOrderContext]
  · rwa [silent.currentState]
  · rwa [silent.currentState, silent.published]

private theorem after_silent (second : GoesOn actionId middle next) (silent : Silent c middle) :
    GoesOn actionId c next := by
  obtain ⟨canceled, orderKey, published⟩ := second
  rw [silent.currentState] at orderKey published
  rw [silent.published] at published
  exact ⟨canceled, orderKey, published⟩

end GoesOn

namespace Config

variable {actionId : String} (c : Config)

/-- What is left of the order is reported as it is afterwards. -/
private theorem updateState_goesOn (canceled : c.isCanceledBy actionId)
    {newPartialState : PartialState} (orderId : newPartialState.orderId = none)
    (orderUpdateId : newPartialState.orderUpdateId = none) (publishImmediately : Bool) :
    GoesOn actionId c (c.updateState newPartialState publishImmediately) := by
  have orderKey : (c.agv.currentState.merge newPartialState).orderKey =
      c.agv.currentState.orderKey := by
    simp [State.orderKey, State.merge, orderId, orderUpdateId]
  constructor
  · unfold isCanceledBy
    rwa [updateState_agv]
  · rw [updateState_agv]
    exact orderKey
  · obtain ⟨states, published, updated⟩ := updateState_published c newPartialState publishImmediately
    refine ⟨states, published, fun state member => ?_⟩
    rw [updated state member, updateState_agv]
    exact ⟨orderKey, .inr (.refl _)⟩

private theorem nodeTraversed_goesOn (canceled : c.isCanceledBy actionId) (node : Node)
    (traversedEdge : Option Edge) : GoesOn actionId c (c.nodeTraversed node traversedEdge) := by
  unfold nodeTraversed
  apply GoesOn.then_silent _ (processNodeActions_silent _ node none)
  apply GoesOn.then_silent _ (.observe _ _)
  apply updateState_goesOn c canceled
  · rfl
  · rfl

private theorem hasCancelingOrder_of_isCanceledBy {c : Config}
    (canceled : c.isCanceledBy actionId) :
    c.agv.hasCancelingOrder := by
  unfold isCanceledBy at canceled
  cases context : c.agv.cancelOrderContext with
  | none => simp [context] at canceled
  | some context' => simp [hasCancelingOrder, context]

private theorem resumePausedNode_silent (canceled : c.isCanceledBy actionId) :
    Silent c c.resumePausedNode := by
  unfold resumePausedNode
  split
  · exact .refl c
  · dsimp only
    rw [if_pos]
    · exact ⟨rfl, rfl, rfl⟩
    · exact hasCancelingOrder_of_isCanceledBy canceled

private theorem resume_goesOn (canceled : c.isCanceledBy actionId) {frame : Frame}
    (alone : ∀ action ∈ Config.nextInstantAction { c with stack := frame :: c.stack },
      action.actionType = "cancelOrder" → action.actionId = actionId) :
    GoesOn actionId c (c.resume frame) := by
  have silently : ∀ {next : Config}, Silent c next → GoesOn actionId c next :=
    fun silent => .of_staysOn canceled (.of_silent silent)
  cases frame with
  | adapter => exact silently (.refl c)
  | finishEdgeActions edge actions =>
      cases actions with
      | nil => exact silently (.refl c)
      | cons action actions => exact silently (finishEdgeAction_silent c edge action actions)
  | nodeTraversed node traversedEdge => exact nodeTraversed_goesOn c canceled node traversedEdge
  | processNodeAction node action stopDriving =>
      exact silently (executeOrderAction_silent c action _ stopDriving)
  | processEdgeAction edge action stopDriving =>
      exact silently (executeOrderAction_silent c action _ stopDriving)
  | cancelOrderActions states hasActionsToBeCanceled =>
      cases states with
      | nil =>
          simp only [resume]
          split
          · exact silently (.refl c)
          · exact silently ⟨rfl, rfl, rfl⟩
      | cons state states => exact silently (cancelOrderAction_silent c state states _)
  | processInstantActionChunk afterAction skipInitialHard =>
      exact silently (processInstantActionChunk_silent c afterAction skipInitialHard)
  | processInstantActions i stopIndex stopDriving =>
      simp only [resume]
      split
      · next going =>
        apply GoesOn.of_staysOn canceled
        apply StaysOn.after_silent _ (.call c [.processInstantActions (i + 1) stopIndex stopDriving])
        apply processInstantAction_staysOn
        intro action found
        apply alone
        simpa only [nextInstantAction, if_pos going] using found
      · exact silently (.refl c)
  | processInstantAction action stopDriving =>
      apply GoesOn.of_staysOn canceled
      apply processInstantAction_staysOn
      intro other found
      exact alone other found
  | resumePausedNode => exact silently (resumePausedNode_silent c canceled)

/-- As long as the vehicle has not stopped, the cancelation goes on. -/
theorem perform_goesOn (canceled : c.isCanceledBy actionId) {event : Event}
    (alone : CancelsAlone actionId c event) (going : ∀ context, event ≠ .stopped context) :
    GoesOn actionId c (c.perform event) := by
  cases event with
  | proceed =>
      simp only [perform, proceed]
      cases stack : c.stack with
      | nil => exact .of_staysOn canceled (.refl c)
      | cons frame rest =>
          dsimp only
          apply GoesOn.after_silent _ (.setStack c rest)
          apply resume_goesOn
          · exact canceled
          · intro action found
            apply alone
            simpa only [nextInstantAction, stack] using found
  | order order adapter => exact .of_staysOn canceled (processOrder_staysOn c canceled order adapter)
  | invalidOrder payload message =>
      simp only [perform, processInvalidOrder]
      split
      · exact .of_staysOn canceled (.of_silent (.throwTypeError c))
      · exact .of_staysOn canceled (rejectOrder_staysOn c _)
  | instantActions message adapter =>
      exact .of_staysOn canceled (processInstantActions_staysOn c message adapter)
  | invalidInstantActions payload message =>
      simp only [perform, processInvalidInstantActions]
      split
      · exact .of_staysOn canceled (.of_silent (.throwTypeError c))
      · exact .of_staysOn canceled (addInstantActionError_staysOn c _)
  | updateActionStatus context change =>
      have executed : Silent c
          { c with
            executing :=
              if change.actionStatus.isEnded then c.executing.erase context else c.executing } :=
        ⟨rfl, rfl, rfl⟩
      exact .of_staysOn canceled
        ((updateActionStatusCallback_staysOn _ context alone).after_silent executed)
  | edgeTraversed context =>
      have traversed : Silent c
          ({ c with traversing := c.traversing.erase context }.observe (.edgeTraversed context)) :=
        ⟨rfl, rfl, rfl⟩
      have canceling : ({ c with traversing := c.traversing.erase context }.observe
          (.edgeTraversed context)).agv.hasCancelingOrder :=
        hasCancelingOrder_of_isCanceledBy canceled
      simp only [perform, updateEdgeTraversed, canceling, if_true]
      exact .of_staysOn canceled (.of_silent traversed)
  | stopped context => exact absurd rfl (going context)
  | drivingToNextNode nextNode => exact updateState_goesOn c canceled rfl rfl true
  | updatePartialState newState reportImmediately =>
      exact .of_staysOn canceled (updatePartialState_staysOn c alone reportImmediately)
  | updateErrors error mode reportImmediately =>
      exact .of_staysOn canceled (updateErrors_staysOn c error mode reportImmediately)
  | publishTimer => exact .of_staysOn canceled (publishCurrentState_staysOn c)
  | published succeeded =>
      have completed : Silent c { c with inFlight := c.inFlight - 1 } := ⟨rfl, rfl, rfl⟩
      simp only [perform]
      split
      · exact .of_staysOn canceled ((cleanupInstantActionStates_staysOn _).after_silent completed)
      · exact .of_staysOn canceled (.of_silent completed)
  | connection online =>
      have connected : ∀ online, Silent c { c with online := online } := fun _ => ⟨rfl, rfl, rfl⟩
      simp only [perform]
      split
      · exact .of_staysOn canceled ((publishCurrentState_staysOn _).after_silent (connected true))
      · exact .of_staysOn canceled (.of_silent (connected online))

/-- The execution of an action `cancelOrder` enters the cancelation. -/
theorem proceed_cancelOrder {action : Action} (found : c.nextInstantAction = some action)
    (cancels : action.actionType = "cancelOrder") (known : c.agv.lacksCurrentOrder = false) :
    StaysOn action.actionId c c.proceed ∧ c.proceed.isCanceledBy action.actionId := by
  have processed : ∀ (c : Config) (stopDriving : Bool), c.agv.lacksCurrentOrder = false →
      StaysOn action.actionId c (c.processInstantAction (some action) stopDriving) ∧
        (c.processInstantAction (some action) stopDriving).isCanceledBy action.actionId := by
    intro c stopDriving known
    constructor
    · exact processInstantAction_staysOn c stopDriving fun other same _ =>
        congrArg Action.actionId (Option.some.inj same).symm
    · unfold processInstantAction
      dsimp only
      rw [if_neg (by simpa [observe] using known), if_neg (by simp [cancels]), if_pos cancels]
      exact (cancelOrder_staysOn _ rfl).2
  unfold nextInstantAction at found
  unfold proceed
  split at found
  · next next stopDriving rest stack =>
    subst found
    rw [stack]
    obtain ⟨stays, canceled⟩ := processed { c with stack := rest } stopDriving known
    exact ⟨stays.after_silent (.setStack c rest), canceled⟩
  · next i stopIndex stopDriving rest stack =>
    split at found
    · next going =>
      rw [stack]
      dsimp only [resume]
      rw [if_pos going, found]
      have called : Silent c (Config.call { c with stack := rest }
          [.processInstantActions (i + 1) stopIndex stopDriving]) := ⟨rfl, rfl, rfl⟩
      obtain ⟨stays, canceled⟩ := processed (Config.call { c with stack := rest }
        [.processInstantActions (i + 1) stopIndex stopDriving]) stopDriving known
      exact ⟨stays.after_silent called, canceled⟩
    · cases found
  · cases found

/-! ## The end of a cancelation -/

/-- A status without linked state is published together with the state as it is. -/
private theorem reportActionStatus_published (context : ActionContext) (status : ActionStatus)
    (online : c.online) (conform : c.agv.currentState.errors.all (·.error.conforms)) :
    (c.reportActionStatus context { actionStatus := status }).published =
      c.published ++
        [{ c.agv.currentState with
            actionStates :=
              newActionStates c.agv.currentState.actionStates
                (newActionState context { actionStatus := status }) }] := by
  have error : actionError context { actionStatus := status } = none := by
    cases status <;> rfl
  have merged : c.agv.currentState.merge
      ((PartialState.assign
        { actionStates :=
            some (newActionStates c.agv.currentState.actionStates
              (newActionState context { actionStatus := status }))
          errors := none } {})) =
      { c.agv.currentState with
        actionStates :=
          newActionStates c.agv.currentState.actionStates
            (newActionState context { actionStatus := status }) } := by
    simp [State.merge, PartialState.assign]
  unfold reportActionStatus
  simp only [error, cloneState, Option.map_none, observe, updateState, if_true, mergeState, merged,
    publishCurrentState, online, conform, Bool.and_self]

/-- The vehicle has stopped: the State that reports this lists nothing of the
order any more. -/
theorem perform_stopped {actionId : String} (canceled : c.isCanceledBy actionId)
    (context : StopTraverseContext) (alone : CancelsAlone actionId c (.stopped context)) :
    ∃ state, (c.perform (.stopped context)).published = c.published ++ [state] ∧
      state.orderKey = c.agv.currentState.orderKey ∧ state.nodeStates = [] ∧
      state.edgeStates = [] ∧ state.reportsFinished actionId := by
  simp only [isCanceledBy, Option.any_eq_true] at canceled
  obtain ⟨cancelOrderContext, active, same⟩ := canceled
  have same : cancelOrderContext.action.actionId = actionId := by simpa using same
  obtain ⟨online, conform⟩ := alone
  have stopping : ({ c with stopping := c.stopping.erase context } : Config).agv.cancelOrderContext =
      some cancelOrderContext := active
  simp only [perform]
  rw [stopped_some stopping,
    (updateActionStatus_silent _ cancelOrderContext { actionStatus := .finished }).published,
    reportActionStatus_published]
  · rw [canceled_agv]
    refine ⟨_, rfl, rfl, rfl, rfl, ?_⟩
    have first := find?_newActionStates c.agv.currentState.actionStates
      (newActionState cancelOrderContext { actionStatus := .finished })
    subst same
    simp only [State.reportsFinished, Option.any_eq_true, decide_eq_true_eq]
    exact ⟨_, first, rfl⟩
  · exact online
  · rw [canceled_agv]
    exact conform

end Config

end Vda5050
