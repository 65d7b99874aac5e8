import Vda5050.AgvController.Effects

/-!
# Invocations of adapter handlers

What the adapter owes the controller grows by what the controller hands over: the contexts
of executed actions, traversed edges and stopped traversals are those of the handlers
invoked, and they are taken back by callbacks only. Handlers are invoked one at a time.
-/

set_option autoImplicit false

namespace Vda5050

open AgvController

/-! ## Handlers in the log -/

def Observation.executes : Observation → Option ActionContext
  | .executeAction context => some context
  -- an action that is to be finished or canceled has been executed before
  | .finishEdgeAction _ | .cancelAction _ => none
  | _ => none

def Observation.traverses : Observation → Option TraverseEdgeContext
  | .traverseEdge context => some context
  | _ => none

def Observation.stops : Observation → Option StopTraverseContext
  | .stopTraverse context => some context
  | _ => none

/-- A handler of the adapter is invoked. -/
def Observation.isInvocation : Observation → Bool
  | .executeAction _ | .cancelAction _ | .finishEdgeAction _ | .traverseEdge _ |
    .stopTraverse _ => true
  | _ => false

theorem Observation.nothingHandedOver {observation : Observation}
    (uninvolved : observation.isInvocation = false) :
    observation.executes = none ∧ observation.traverses = none ∧ observation.stops = none := by
  cases observation with
  | executeAction | cancelAction | finishEdgeAction | traverseEdge | stopTraverse =>
      cases uninvolved
  | _ => exact ⟨rfl, rfl, rfl⟩

namespace Config

/-- No handler is invoked, and the log does not grow. -/
structure SameHandlers (c next : Config) : Prop where
  log : next.log = c.log
  executing : next.executing = c.executing
  traversing : next.traversing = c.traversing
  stopping : next.stopping = c.stopping

/-- The pending contexts grow by those handed over. -/
structure GrowsBy (observations : List Observation) (c next : Config) : Prop where
  log : next.log = c.log ++ observations
  executing : next.executing = (observations.filterMap (·.executes)).reverse ++ c.executing
  traversing : next.traversing = (observations.filterMap (·.traverses)).reverse ++ c.traversing
  stopping : next.stopping = (observations.filterMap (·.stops)).reverse ++ c.stopping

/-- No handler is invoked, whatever else is observed. -/
def InvokesNone (c next : Config) : Prop :=
  ∃ observations, GrowsBy observations c next ∧ observations.filter (·.isInvocation) = []

/-- At most one handler is invoked, and it runs next. -/
def Invokes (c next : Config) : Prop :=
  ∃ observations, GrowsBy observations c next ∧
    (observations.filter (·.isInvocation) = [] ∨
      ∃ invocation, observations.filter (·.isInvocation) = [invocation] ∧
        next.stack.head? = some .adapter)

variable {c middle next : Config}

private theorem SameHandlers.growsBy (same : SameHandlers c next) : GrowsBy [] c next :=
  ⟨by simpa using same.log, same.executing, same.traversing, same.stopping⟩

theorem GrowsBy.trans {observations later : List Observation}
    (first : GrowsBy observations c middle) (second : GrowsBy later middle next) :
    GrowsBy (observations ++ later) c next where
  log := by rw [second.log, first.log, List.append_assoc]
  executing := by simp [second.executing, first.executing]
  traversing := by simp [second.traversing, first.traversing]
  stopping := by simp [second.stopping, first.stopping]

namespace InvokesNone

theorem of_same (same : SameHandlers c next) : InvokesNone c next := ⟨[], same.growsBy, rfl⟩

theorem refl (c : Config) : InvokesNone c c := .of_same ⟨rfl, rfl, rfl, rfl⟩

theorem trans (first : InvokesNone c middle) (second : InvokesNone middle next) :
    InvokesNone c next := by
  obtain ⟨observations, grown, none⟩ := first
  obtain ⟨later, grown', none'⟩ := second
  exact ⟨observations ++ later, grown.trans grown', by rw [List.filter_append, none, none']; rfl⟩

theorem same (first : InvokesNone c middle) (second : SameHandlers middle next) :
    InvokesNone c next :=
  first.trans (.of_same second)

/-- An observation of something else than an invocation. -/
theorem observe (invokes : InvokesNone c middle) (observation : Observation)
    (uninvolved : observation.isInvocation = false) :
    InvokesNone c (middle.observe observation) := by
  obtain ⟨executes, traverses, stops⟩ := Observation.nothingHandedOver uninvolved
  refine invokes.trans ⟨[observation], ⟨rfl, ?_, ?_, ?_⟩, by simp [uninvolved]⟩
  · simp [Config.observe, executes]
  · simp [Config.observe, traverses]
  · simp [Config.observe, stops]

end InvokesNone

namespace Invokes

private theorem of_none (none : InvokesNone c next) : Invokes c next := by
  obtain ⟨observations, grown, none⟩ := none
  exact ⟨observations, grown, .inl none⟩

theorem of_same (same : SameHandlers c next) : Invokes c next := .of_none (.of_same same)

theorem refl (c : Config) : Invokes c c := .of_none (.refl c)

/-- The handler runs next. -/
theorem invoke {observation : Observation} (grown : GrowsBy [observation] c next)
    (top : next.stack.head? = some .adapter) : Invokes c next := by
  refine ⟨[observation], grown, ?_⟩
  cases involved : observation.isInvocation with
  | false => exact .inl (by simp [involved])
  | true => exact .inr ⟨observation, by simp [involved], top⟩

/-- Before the handler, none is invoked. -/
theorem after (second : Invokes middle next) (first : InvokesNone c middle) : Invokes c next := by
  obtain ⟨observations, grown, none⟩ := first
  obtain ⟨later, grown', single⟩ := second
  refine ⟨observations ++ later, grown.trans grown', ?_⟩
  rwa [List.filter_append, none]

theorem of_kept (invokes : Invokes middle next) (same : SameHandlers c middle) : Invokes c next :=
  invokes.after (.of_same same)

end Invokes

/-! ## Updates and publications -/

private theorem call_sameHandlers (c : Config) (frames : List Frame) :
    SameHandlers c (c.call frames) :=
  ⟨rfl, rfl, rfl, rfl⟩

private theorem throwTypeError_sameHandlers (c : Config) : SameHandlers c c.throwTypeError :=
  ⟨rfl, rfl, rfl, rfl⟩

private theorem publishCurrentState_sameHandlers (c : Config) :
    SameHandlers c c.publishCurrentState :=
  ⟨by simp, by simp, by simp, by simp⟩

private theorem updateState_sameHandlers (c : Config) (state : PartialState)
    (publishImmediately : Bool) :
    SameHandlers c (c.updateState state publishImmediately) :=
  ⟨by simp, by simp, by simp, by simp⟩

private theorem addError_sameHandlers (c : Config) (error : Error) :
    SameHandlers c (c.addError error) :=
  ⟨by simp [addError], by simp [addError], by simp [addError], by simp [addError]⟩

private theorem addInstantActionError_sameHandlers (c : Config) (error : Error) :
    SameHandlers c (c.addInstantActionError error) := by
  obtain ⟨log, executing, traversing, stopping⟩ := addError_sameHandlers
    { c with agv := { c.agv with
      instantActionsErroredPublishCount :=
        setEntry c.agv.nextErrorRef 0 c.agv.instantActionsErroredPublishCount } } error
  exact ⟨log, executing, traversing, stopping⟩

private theorem rejectOrder_invokesNone (c : Config) (error : Error) :
    InvokesNone c (c.rejectOrder error) :=
  (InvokesNone.of_same (addError_sameHandlers c error)).observe _ rfl

theorem updatePartialState_sameHandlers (c : Config) (newState : PartialState)
    (reportImmediately : Bool) :
    SameHandlers c (c.updatePartialState newState reportImmediately) := by
  obtain ⟨log, executing, traversing, stopping⟩ := updateState_sameHandlers
    { c with agv := (c.agv.cloneState newState).2 } (c.agv.cloneState newState).1
    reportImmediately
  exact ⟨log, executing, traversing, stopping⟩

theorem updateErrors_sameHandlers (c : Config) (error : Error) (mode : UpdateMode)
    (reportImmediately : Bool) : SameHandlers c (c.updateErrors error mode reportImmediately) := by
  unfold updateErrors
  split
  · exact throwTypeError_sameHandlers c
  · exact ⟨rfl, rfl, rfl, rfl⟩
  · exact updatePartialState_sameHandlers c _ reportImmediately

/-! ## Moves along an order -/

private theorem traverseEdge_invokes (c : Config) (edge : Edge) :
    Invokes c (c.traverseEdge edge) := by
  unfold traverseEdge
  cases c.agv.currentOrder with
  | none => exact .of_same (throwTypeError_sameHandlers c)
  | some order => exact .invoke ⟨rfl, rfl, rfl, rfl⟩ rfl

private theorem processEdgeActions_invokes (c : Config) (edge : Edge)
    (afterAction : Option Action) :
    Invokes c (c.processEdgeActions edge afterAction) := by
  unfold processEdgeActions
  cases scheduleAfter edge.actions afterAction with
  | processed => exact traverseEdge_invokes c edge
  | hard action => exact .of_same (call_sameHandlers c _)
  | parallel actions stopDriving => exact .of_same (call_sameHandlers c _)

private theorem processEdge_invokes (c : Config) (node : Node) :
    Invokes c (c.processEdge node) := by
  unfold processEdge
  cases c.agv.currentOrder with
  | none => exact .of_same (throwTypeError_sameHandlers c)
  | some order =>
      dsimp only
      cases getTrailingEdge order node with
      | none => exact .refl c
      | some edge =>
          dsimp only
          split
          · exact processEdgeActions_invokes c edge none
          · exact .refl c

private theorem processNodeActions_invokes (c : Config) (node : Node)
    (afterAction : Option Action) :
    Invokes c (c.processNodeActions node afterAction) := by
  unfold processNodeActions
  cases scheduleAfter node.actions afterAction with
  | processed => exact processEdge_invokes c node
  | hard action => exact .of_same (call_sameHandlers c _)
  | parallel actions stopDriving => exact .of_same (call_sameHandlers c _)

private theorem nodeTraversed_invokes (c : Config) (node : Node) (traversedEdge : Option Edge) :
    Invokes c (c.nodeTraversed node traversedEdge) := by
  have updated := InvokesNone.of_same (updateState_sameHandlers c
    { nodeStates := some (c.agv.currentState.nodeStates.filter fun s =>
        !(s.nodeId = node.nodeId && s.sequenceId = node.sequenceId))
      edgeStates := traversedEdge.map fun edge => c.agv.currentState.edgeStates.filter fun s =>
        !(s.edgeId = edge.edgeId && s.sequenceId = edge.sequenceId)
      lastNodeId := some node.nodeId
      lastNodeSequenceId := some node.sequenceId } true)
  exact (processNodeActions_invokes _ node none).after (updated.observe _ rfl)

private theorem processNode_invokes (c : Config) (node : Node) (traversedEdge : Option Edge) :
    Invokes c (c.processNode node traversedEdge) := by
  unfold processNode
  split
  · exact .refl c
  · split
    · exact .of_same ⟨rfl, rfl, rfl, rfl⟩
    · cases traversedEdge with
      | none => exact nodeTraversed_invokes c node none
      | some edge => exact .of_same (call_sameHandlers c _)

private theorem executeOrderAction_invokes (c : Config) (action : Action) (scope : ActionScope)
    (stopDriving : Bool) : Invokes c (c.executeOrderAction action scope stopDriving) := by
  unfold executeOrderAction
  cases c.agv.currentOrder with
  | none => exact .of_same (throwTypeError_sameHandlers c)
  | some order => exact .invoke ⟨rfl, rfl, rfl, rfl⟩ rfl

private theorem finishEdgeAction_invokes (c : Config) (edge : Edge) (action : Action)
    (actions : List Action) : Invokes c (c.finishEdgeAction edge action actions) := by
  unfold finishEdgeAction
  split
  · exact .of_same (call_sameHandlers c _)
  · cases c.agv.currentOrder with
    | none => exact .of_same (throwTypeError_sameHandlers c)
    | some order => exact .invoke ⟨rfl, rfl, rfl, rfl⟩ rfl

/-! ## Actions -/

private theorem onOrderActionsCanceled_invokes (c : Config) : Invokes c c.onOrderActionsCanceled :=
  .invoke ⟨rfl, rfl, rfl, rfl⟩ rfl

private theorem orderActionCanceled_invokes (c : Config) : Invokes c c.orderActionCanceled := by
  unfold orderActionCanceled
  cases c.agv.currentOrder with
  | none => exact .of_same (throwTypeError_sameHandlers c)
  | some order =>
      dsimp only
      split
      · exact onOrderActionsCanceled_invokes c
      · exact .refl c

private theorem nodeActionEnded_invokes (c : Config) (node : Node) (action : Action) :
    Invokes c (c.nodeActionEnded node action) := by
  unfold nodeActionEnded
  cases c.agv.continuation node.actions action with
  | processActions => exact processNodeActions_invokes c node _
  | executeHard nextHardAction => exact .of_same (call_sameHandlers c _)
  | drive => exact processEdge_invokes c node
  | wait => exact .refl c

private theorem edgeActionEnded_invokes (c : Config) (edge : Edge) (action : Action) :
    Invokes c (c.edgeActionEnded edge action) := by
  unfold edgeActionEnded
  cases c.agv.continuation edge.actions action with
  | processActions => exact processEdgeActions_invokes c edge _
  | executeHard nextHardAction => exact .of_same (call_sameHandlers c _)
  | drive => exact traverseEdge_invokes c edge
  | wait => exact .refl c

private theorem instantActionEnded_sameHandlers (c : Config) (action : Action) :
    SameHandlers c (c.instantActionEnded action) := by
  obtain ⟨frames, same, -⟩ := instantActionEnded_eq c action
  rw [same]
  exact ⟨rfl, rfl, rfl, rfl⟩

private theorem reportActionStatus_invokesNone (c : Config) (context : ActionContext)
    (change : ActionStatusChangeInfo) : InvokesNone c (c.reportActionStatus context change) := by
  unfold reportActionStatus
  dsimp only
  refine InvokesNone.observe (InvokesNone.same ?_ (updateState_sameHandlers _ _ true)) _ rfl
  exact .of_same ⟨rfl, rfl, rfl, rfl⟩

private theorem updateActionStatus_invokes (c : Config) (context : ActionContext)
    (change : ActionStatusChangeInfo) : Invokes c (c.updateActionStatus context change) := by
  have reported := reportActionStatus_invokesNone c context change
  unfold updateActionStatus
  dsimp only
  split
  · exact .of_none reported
  · refine Invokes.after ?_ reported
    cases context.scope with
    | instant => exact .of_same (instantActionEnded_sameHandlers _ _)
    | node node =>
        dsimp only
        split
        · exact orderActionCanceled_invokes _
        · exact nodeActionEnded_invokes _ _ _
    | edge edge =>
        dsimp only
        split
        · exact orderActionCanceled_invokes _
        · exact edgeActionEnded_invokes _ _ _

private theorem cancelOrder_invokesNone (c : Config) (context : ActionContext) :
    InvokesNone c (c.cancelOrder context) := by
  have begun := (InvokesNone.refl c).observe (.cancelOrder context c.agv.hasActiveOrder
    c.agv.hasCancelingOrder) rfl
  unfold cancelOrder updateActionStatus
  dsimp only
  refine InvokesNone.same (begun.trans ?_) (call_sameHandlers _ _)
  refine InvokesNone.trans ?_ (reportActionStatus_invokesNone _ _ _)
  exact .of_same ⟨rfl, rfl, rfl, rfl⟩

private theorem executeInstantAction_invokes (c : Config) (context : ActionContext) :
    Invokes c (c.executeInstantAction context) :=
  .invoke ⟨rfl, rfl, rfl, rfl⟩ rfl

private theorem processInstantAction_invokes (c : Config) (action : Option Action)
    (stopDriving : Bool) :
    Invokes c (c.processInstantAction action stopDriving) := by
  have processed := (InvokesNone.refl c).observe (.instantActionProcessed action) rfl
  unfold processInstantAction
  dsimp only
  refine Invokes.after ?_ processed
  cases action with
  | none => exact .of_same (throwTypeError_sameHandlers _)
  | some action =>
      have reset : ∀ c : Config, SameHandlers c (c.resetEndedPublishCount action) :=
        fun c => ⟨rfl, rfl, rfl, rfl⟩
      dsimp only
      split
      · exact .of_same (throwTypeError_sameHandlers _)
      split
      · exact (updateActionStatus_invokes _ _ _).of_kept (reset _)
      · split
        · exact (Invokes.of_none (cancelOrder_invokesNone _ _)).of_kept (reset _)
        · exact (executeInstantAction_invokes _ _).of_kept (reset _)

private theorem acceptInstantActions_invokesNone (c : Config) (adapter : AdapterAnswers)
    (actions : List Action) : InvokesNone c (c.acceptInstantActions adapter actions) := by
  induction actions generalizing c with
  | nil => exact .refl c
  | cons action actions ih =>
      unfold acceptInstantActions
      cases checkInstantActionExecutable c.agv adapter action with
      | some error =>
          have rejected := InvokesNone.of_same (addInstantActionError_sameHandlers c error)
          exact (rejected.observe _ rfl).trans (ih _)
      | none =>
          have queued : InvokesNone c { c with agv :=
              { c.agv with currentInstantActions := c.agv.currentInstantActions ++ [action] } } :=
            .of_same ⟨rfl, rfl, rfl, rfl⟩
          exact (queued.observe _ rfl).trans (ih _)

private theorem processInstantActions_invokesNone (c : Config) (message : InstantActions)
    (adapter : AdapterAnswers) : InvokesNone c (c.processInstantActions message adapter) := by
  unfold processInstantActions
  dsimp only
  split
  · exact .of_same (throwTypeError_sameHandlers c)
  split
  · exact acceptInstantActions_invokesNone c adapter message.actions
  · exact (acceptInstantActions_invokesNone c adapter message.actions).same (call_sameHandlers _ _)

private theorem processInstantActionChunk_sameHandlers (c : Config) (afterAction : Option Action)
    (skipInitialHard : Bool) :
    SameHandlers c (c.processInstantActionChunk afterAction skipInitialHard) := by
  unfold processInstantActionChunk
  dsimp only
  split
  · split <;> exact ⟨rfl, rfl, rfl, rfl⟩
  · exact ⟨rfl, rfl, rfl, rfl⟩

/-! ## Orders -/

/-- The node object that an order updates if it is accepted as a stitching order. -/
def stitchedNode (c : Config) (order : Order) (adapter : AdapterAnswers) : Option Node :=
  let order := allocateNodes c.received order
  if c.agv.decideOrder adapter order = .accept .stitch then
    (c.agv.currentOrder.bind currentBaseEnd).map (stitchedBaseEnd · order)
  else none

/-- Every holder of a node object sees its update, if there is one. -/
def replaceStitched (c : Config) : Option Node → Config
  | none => c
  | some updated => c.replaceNode updated

private theorem replaceStitched_received (c : Config) (received : Nat) (updated : Option Node) :
    SameHandlers (c.replaceStitched updated) ({ c with received }.replaceStitched updated) := by
  cases updated <;> exact ⟨rfl, rfl, rfl, rfl⟩

private theorem beginOrder_invokesNone (c : Config) (trajectory : TrajectoryHandler) (order : Order)
    (mode : AcceptMode) : InvokesNone c (c.beginOrder trajectory order mode) := by
  have accepted := (InvokesNone.refl c).observe (.orderAccepted mode order) rfl
  unfold beginOrder
  dsimp only
  refine accepted.trans (InvokesNone.same ?_ (updateState_sameHandlers _ _ true))
  exact .of_same ⟨rfl, rfl, rfl, rfl⟩

private theorem startOrder_invokes (c : Config) (trajectory : TrajectoryHandler) (order : Order)
    (mode : AcceptMode) :
    Invokes c
      (match order.nodes.head? with
        | none => (c.beginOrder trajectory order mode).throwTypeError
        | some firstNode => (c.beginOrder trajectory order mode).processNode firstNode none) := by
  have begun := beginOrder_invokesNone c trajectory order mode
  cases order.nodes.head? with
  | none => exact .of_none (begun.same (throwTypeError_sameHandlers _))
  | some firstNode => exact (processNode_invokes _ firstNode none).after begun

private theorem stitchOrder_invokesNone (c : Config) (trajectory : TrajectoryHandler)
    (currentOrder : Order) (baseEnd : Node) (order : Order) :
    InvokesNone (c.replaceNode (stitchedBaseEnd baseEnd order))
      (c.stitchOrder trajectory currentOrder baseEnd order) := by
  have accepted : InvokesNone (c.replaceNode (stitchedBaseEnd baseEnd order))
      ((c.observe (.orderAccepted .stitch order)).replaceNode (stitchedBaseEnd baseEnd order)) :=
    ⟨[.orderAccepted .stitch order], ⟨rfl, rfl, rfl, rfl⟩, rfl⟩
  unfold stitchOrder
  dsimp only
  refine accepted.trans (InvokesNone.same ?_ (updateState_sameHandlers _ _ true))
  exact .of_same ⟨rfl, rfl, rfl, rfl⟩

/-- Node objects are updated before any handler is invoked. -/
private theorem acceptOrder_stitch_invokes (c : Config) (trajectory : TrajectoryHandler)
    (order : Order) :
    Invokes (c.replaceStitched
        ((c.agv.currentOrder.bind currentBaseEnd).map (stitchedBaseEnd · order)))
      (c.acceptOrder trajectory order .stitch) := by
  have crashes : Invokes c (c.observe (.orderAccepted .stitch order)).throwTypeError :=
    .of_none (((InvokesNone.refl c).observe _ rfl).same (throwTypeError_sameHandlers _))
  unfold acceptOrder
  dsimp only
  cases c.agv.currentOrder with
  | none => exact crashes
  | some currentOrder =>
      dsimp only [Option.bind_some]
      cases currentBaseEnd currentOrder with
      | none => exact crashes
      | some baseEnd =>
          have stitched := stitchOrder_invokesNone c trajectory currentOrder baseEnd order
          dsimp only
          split
          · exact (processEdge_invokes _ _).after stitched
          · exact .of_none stitched

private theorem processOrder_invokes (c : Config) (order : Order) (adapter : AdapterAnswers) :
    Invokes (c.replaceStitched (c.stitchedNode order adapter)) (c.processOrder order adapter) := by
  have received : SameHandlers c { c with received := c.received + 1 } := ⟨rfl, rfl, rfl, rfl⟩
  unfold processOrder stitchedNode
  dsimp only
  cases decided : c.agv.decideOrder adapter (allocateNodes c.received order) with
  | reject error => exact (Invokes.of_none (rejectOrder_invokesNone _ error)).of_kept received
  | discard =>
      refine Invokes.of_kept (.of_none ?_) received
      exact (InvokesNone.of_same (updateState_sameHandlers _ _ true)).observe _ rfl
  | accept mode =>
      cases mode with
      | new => exact (startOrder_invokes _ _ _ .new).of_kept received
      | update => exact (startOrder_invokes _ _ _ .update).of_kept received
      | stitch =>
          rw [if_pos rfl]
          exact (acceptOrder_stitch_invokes _ adapter.trajectory _).of_kept
            (replaceStitched_received c _ _)

/-! ## Steps -/

private theorem resumePausedNode_invokes (c : Config) : Invokes c c.resumePausedNode := by
  unfold resumePausedNode
  cases c.agv.currentPausedNode with
  | none => exact .refl c
  | some pausedNode =>
      have cleared : SameHandlers c { c with agv := { c.agv with currentPausedNode := none } } :=
        ⟨rfl, rfl, rfl, rfl⟩
      dsimp only
      split
      · exact .of_same cleared
      · exact (processNode_invokes _ pausedNode none).of_kept cleared

private theorem resume_invokes (c : Config) (frame : Frame) : Invokes c (c.resume frame) := by
  cases frame with
  | adapter => exact .refl c
  | finishEdgeActions edge actions =>
      cases actions with
      | nil => exact .refl c
      | cons action actions => exact finishEdgeAction_invokes c edge action actions
  | nodeTraversed node traversedEdge => exact nodeTraversed_invokes c node traversedEdge
  | processNodeAction node action stopDriving =>
      exact executeOrderAction_invokes c action _ stopDriving
  | processEdgeAction edge action stopDriving =>
      exact executeOrderAction_invokes c action _ stopDriving
  | cancelOrderActions states hasActionsToBeCanceled =>
      cases states with
      | nil =>
          cases hasActionsToBeCanceled with
          | true => exact .refl c
          | false => exact onOrderActionsCanceled_invokes c
      | cons state states =>
          unfold resume cancelOrderAction
          dsimp only
          split
          · cases c.agv.currentOrder with
            | none => exact .of_same (throwTypeError_sameHandlers c)
            | some order => exact .invoke ⟨rfl, rfl, rfl, rfl⟩ rfl
          · exact .of_same (call_sameHandlers c _)
  | processInstantActionChunk afterAction skipInitialHard =>
      exact .of_same (processInstantActionChunk_sameHandlers c afterAction skipInitialHard)
  | processInstantActions i stopIndex stopDriving =>
      unfold resume
      dsimp only
      split
      · exact (processInstantAction_invokes _ _ stopDriving).of_kept (call_sameHandlers c _)
      · exact .refl c
  | processInstantAction action stopDriving =>
      exact processInstantAction_invokes c action stopDriving
  | resumePausedNode => exact resumePausedNode_invokes c

private theorem stopped_invokes (c : Config) (context : StopTraverseContext) :
    Invokes c (c.stopped context) := by
  have observed : ∀ pending, InvokesNone c (c.observe (.stopped context pending)) :=
    fun pending => (InvokesNone.refl c).observe _ rfl
  have cleared : ∀ before : Config, InvokesNone before
      ({ before with agv := { before.agv with cancelOrderContext := none } }.updateState
        { nodeStates := some [], edgeStates := some [] } false) := by
    intro before
    refine InvokesNone.same ?_ (updateState_sameHandlers _ _ false)
    exact .of_same ⟨rfl, rfl, rfl, rfl⟩
  unfold stopped
  dsimp only
  cases c.agv.cancelOrderContext with
  | none =>
      exact .of_none (((observed _).trans (cleared _)).same (throwTypeError_sameHandlers _))
  | some cancelOrderContext =>
      exact (updateActionStatus_invokes _ _ _).after ((observed _).trans (cleared _))

/-- A callback takes back the context it belongs to, and an accepted order updates node
objects. -/
def settle (c : Config) : Event → Config
  | .updateActionStatus context change =>
      { c with
        executing :=
          if change.actionStatus.isEnded then c.executing.erase context else c.executing }
  | .edgeTraversed context => { c with traversing := c.traversing.erase context }
  | .stopped context => { c with stopping := c.stopping.erase context }
  | .order order adapter => c.replaceStitched (c.stitchedNode order adapter)
  | _ => c

/-- Contexts are added by the invocation of handlers, and taken back by callbacks. -/
theorem perform_invokes (c : Config) (event : Event) :
    Invokes (c.settle event) (c.perform event) := by
  cases event with
  | proceed =>
      simp only [perform, proceed]
      split
      · exact .refl c
      · exact (resume_invokes _ _).of_kept ⟨rfl, rfl, rfl, rfl⟩
  | order order adapter => exact processOrder_invokes c order adapter
  | invalidOrder payload message =>
      simp only [perform, processInvalidOrder]
      split
      · exact .of_same (throwTypeError_sameHandlers c)
      · exact .of_none (rejectOrder_invokesNone c _)
  | instantActions message adapter =>
      exact .of_none (processInstantActions_invokesNone c message adapter)
  | invalidInstantActions payload message =>
      simp only [perform, processInvalidInstantActions]
      split
      · exact .of_same (throwTypeError_sameHandlers c)
      · exact .of_same (addInstantActionError_sameHandlers c _)
  | updateActionStatus context change =>
      simp only [perform, adapterReports, updateActionStatusCallback]
      split
      · exact (updateActionStatus_invokes _ context change).of_kept (call_sameHandlers _ _)
      · exact updateActionStatus_invokes _ context change
  | edgeTraversed context =>
      have observed := (InvokesNone.refl (c.settle (.edgeTraversed context))).observe
        (.edgeTraversed context) rfl
      simp only [perform, updateEdgeTraversed]
      refine Invokes.after ?_ observed
      split
      · exact .refl _
      · split
        · exact .of_same (throwTypeError_sameHandlers _)
        · exact processNode_invokes _ _ _
  | stopped context => exact stopped_invokes _ context
  | drivingToNextNode nextNode => exact .of_same (updateState_sameHandlers c _ true)
  | updatePartialState newState reportImmediately =>
      exact .of_same (updatePartialState_sameHandlers c newState reportImmediately)
  | updateErrors error mode reportImmediately =>
      exact .of_same (updateErrors_sameHandlers c error mode reportImmediately)
  | publishTimer => exact .of_same (publishCurrentState_sameHandlers c)
  | published succeeded => cases succeeded <;> exact .of_same ⟨rfl, rfl, rfl, rfl⟩
  | connection online =>
      simp only [perform]
      split
      · exact (Invokes.of_same (publishCurrentState_sameHandlers _)).of_kept ⟨rfl, rfl, rfl, rfl⟩
      · exact .of_same ⟨rfl, rfl, rfl, rfl⟩

end Config

end Vda5050
