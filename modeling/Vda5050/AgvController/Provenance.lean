import Vda5050.AgvController.Decision
import Vda5050.AgvController.History

/-!
# Where actions come from

Every action the controller or its adapter holds belongs to an accepted order
or is an accepted instant action. Order actions and instant actions never mix,
since their actionIds are distinct.
-/

set_option autoImplicit false

namespace Vda5050

open AgvController

variable {orderId instantId orderId' instantId' : String → Prop}

/-- All actions to be executed on the node satisfy the predicate. -/
def Node.ActionsFrom (orderId : String → Prop) (node : Node) : Prop :=
  ∀ action ∈ node.actions, orderId action.actionId

def Edge.ActionsFrom (orderId : String → Prop) (edge : Edge) : Prop :=
  ∀ action ∈ edge.actions, orderId action.actionId

def Frame.From (orderId instantId : String → Prop) : Frame → Prop
  | .finishEdgeActions edge _ => edge.ActionsFrom orderId
  | .nodeTraversed node _ => node.ActionsFrom orderId
  | .processNodeAction node action _ => node.ActionsFrom orderId ∧ orderId action.actionId
  | .processEdgeAction edge action _ => edge.ActionsFrom orderId ∧ orderId action.actionId
  | .processInstantAction (some action) _ => instantId action.actionId
  | _ => True

def ActionContext.From (orderId instantId : String → Prop) (context : ActionContext) : Prop :=
  match context.scope with
  | .instant => instantId context.action.actionId
  | .node node => node.ActionsFrom orderId ∧ orderId context.action.actionId
  | .edge edge => edge.ActionsFrom orderId ∧ orderId context.action.actionId

theorem ActionContext.From.actionId {context : ActionContext}
    (held : context.From orderId instantId) :
    orderId context.action.actionId ∨ instantId context.action.actionId := by
  unfold ActionContext.From at held
  split at held
  · exact .inr held
  · exact .inl held.2
  · exact .inl held.2

def TraverseEdgeContext.From (orderId : String → Prop) (context : TraverseEdgeContext) : Prop :=
  context.edge.ActionsFrom orderId ∧
    ∀ node, context.endNode = some node → node.released → node.ActionsFrom orderId

def Order.ActionsFrom (orderId : String → Prop) (order : Order) : Prop :=
  (∀ node ∈ order.nodes, node.released → node.ActionsFrom orderId) ∧
    ∀ edge ∈ order.edges, edge.released → edge.ActionsFrom orderId

/-- The actions held satisfy the predicate of order actions or the one of
instant actions, as the case may be. -/
structure Provenance (orderId instantId : String → Prop) (c : Config) : Prop where
  stack : ∀ frame ∈ c.stack, frame.From orderId instantId
  executing : ∀ context ∈ c.executing, context.From orderId instantId
  executed : ∀ context ∈ c.executing, context.scope = .instant →
    context.action.actionType ≠ "cancelOrder"
  traversing : ∀ context ∈ c.traversing, context.From orderId
  pausedNode : ∀ node, c.agv.currentPausedNode = some node → node.ActionsFrom orderId
  currentOrder : ∀ order, c.agv.currentOrder = some order → order.ActionsFrom orderId
  instantActions : ∀ action ∈ c.agv.currentInstantActions, instantId action.actionId
  cancelOrderContext : ∀ context, c.agv.cancelOrderContext = some context →
    context.scope = .instant ∧ instantId context.action.actionId
  endedPublishCount : ∀ entry ∈ c.agv.instantActionsEndedPublishCount, instantId entry.1
  actionStates : ∀ state ∈ c.agv.currentState.actionStates,
    orderId state.actionId ∨ instantId state.actionId

/-! ## The helper functions -/

theorem mem_of_scheduleAfter_hard {actions : List Action} {afterAction : Option Action}
    {action : Action} (scheduled : scheduleAfter actions afterAction = .hard action) :
    action ∈ actions := by
  unfold scheduleAfter at scheduled
  simp only at scheduled
  split at scheduled
  · split at scheduled
    · cases scheduled
    · next selected =>
      cases scheduled
      obtain ⟨index, -, found⟩ := Option.bind_eq_some_iff.mp selected
      exact List.mem_of_getElem? found
  · cases scheduled

theorem subset_of_scheduleAfter_parallel {actions scheduled : List Action}
    {afterAction : Option Action} {stopDriving : Bool}
    (parallel : scheduleAfter actions afterAction = .parallel scheduled stopDriving) :
    scheduled ⊆ actions := by
  unfold scheduleAfter at parallel
  simp only at parallel
  split at parallel
  · split at parallel <;> cases parallel
  · cases parallel
    exact fun action member => List.mem_of_mem_drop (List.mem_of_mem_take member)

theorem mem_of_getHardBlockingActionAfterParallelActions {actions : List Action}
    {action nextHardAction : Action}
    (found : getHardBlockingActionAfterParallelActions actions action = some nextHardAction) :
    nextHardAction ∈ actions :=
  List.mem_of_mem_drop (List.mem_of_find?_eq_some found)

theorem mem_of_continuation_executeHard {agv : AgvController} {actions : List Action}
    {action nextHardAction : Action}
    (continued : agv.continuation actions action = .executeHard nextHardAction) :
    nextHardAction ∈ actions := by
  unfold continuation at continued
  split at continued
  · cases continued
  · split at continued
    · next found =>
      split at continued
      · cases continued
        exact mem_of_getHardBlockingActionAfterParallelActions found
      · cases continued
    · split at continued <;> cases continued

theorem mem_of_getTrailingEdge {order : Order} {node : Node} {edge : Edge}
    (found : getTrailingEdge order node = some edge) : edge ∈ order.edges :=
  List.mem_of_find?_eq_some found

theorem mem_of_getEdgeEndNode {order : Order} {edge : Edge} {node : Node}
    (found : getEdgeEndNode order edge = some node) : node ∈ order.nodes :=
  List.mem_of_find?_eq_some found

theorem mem_setEntry {Key Value : Type} [DecidableEq Key] {key : Key} {value : Value}
    {entries : List (Key × Value)} {entry : Key × Value}
    (member : entry ∈ setEntry key value entries) : entry = (key, value) ∨ entry ∈ entries := by
  unfold setEntry at member
  split at member
  · obtain ⟨original, included, same⟩ := List.mem_map.mp member
    split at same
    · exact .inl same.symm
    · exact .inr (same ▸ included)
  · rcases List.mem_append.mp member with included | added
    · exact .inr included
    · exact .inl (by simpa using added)

theorem mem_newActionStates {states : List ActionState} {state reported : ActionState}
    (member : state ∈ Config.newActionStates states reported) :
    state = reported ∨ state ∈ states := by
  unfold Config.newActionStates at member
  split at member
  · rcases List.mem_append.mp member with included | added
    · exact .inr included
    · exact .inl (by simpa using added)
  · exact (List.mem_or_eq_of_mem_set member).symm

theorem spliceAction_subset (actions : List Action) (action : Action) :
    Config.spliceAction actions action ⊆ actions := by
  unfold Config.spliceAction
  split
  · exact List.dropLast_subset actions
  · exact List.eraseIdx_subset

/-! ## The methods -/

namespace Provenance

variable {c : Config}

theorem mono (from' : Provenance orderId instantId c)
    (orders : ∀ id, orderId id → orderId' id) (instants : ∀ id, instantId id → instantId' id) :
    Provenance orderId' instantId' c where
  stack frame member := by
    have held := from'.stack frame member
    cases frame with
    | processInstantAction action =>
        cases action with
        | none => trivial
        | some action => exact instants _ held
    | processNodeAction | processEdgeAction =>
        exact ⟨fun action included => orders _ (held.1 action included), orders _ held.2⟩
    | finishEdgeActions | nodeTraversed =>
        exact fun action included => orders _ (held action included)
    | _ => trivial
  executing context member := by
    have held := from'.executing context member
    unfold ActionContext.From at held ⊢
    split at held
    · exact instants _ held
    · exact ⟨fun action included => orders _ (held.1 action included), orders _ held.2⟩
    · exact ⟨fun action included => orders _ (held.1 action included), orders _ held.2⟩
  executed := from'.executed
  traversing context member :=
    ⟨fun action included => orders _ ((from'.traversing context member).1 action included),
      fun node found released action included =>
        orders _ ((from'.traversing context member).2 node found released action included)⟩
  pausedNode node paused action included := orders _ (from'.pausedNode node paused action included)
  currentOrder order current :=
    ⟨fun node member released action included =>
        orders _ ((from'.currentOrder order current).1 node member released action included),
      fun edge member released action included =>
        orders _ ((from'.currentOrder order current).2 edge member released action included)⟩
  instantActions action member := instants _ (from'.instantActions action member)
  cancelOrderContext context pending :=
    ⟨(from'.cancelOrderContext context pending).1,
      instants _ (from'.cancelOrderContext context pending).2⟩
  endedPublishCount entry member := instants _ (from'.endedPublishCount entry member)
  actionStates state member := (from'.actionStates state member).imp (orders _) (instants _)

theorem throwTypeError (from' : Provenance orderId instantId c) :
    Provenance orderId instantId c.throwTypeError :=
  { from' with stack := by simp [Config.throwTypeError] }

theorem call (from' : Provenance orderId instantId c) {frames : List Frame}
    (called : ∀ frame ∈ frames, frame.From orderId instantId) :
    Provenance orderId instantId (c.call frames) :=
  { from' with
    stack := fun frame member => by
      rcases List.mem_append.mp member with member | member
      · exact called frame member
      · exact from'.stack frame member }

theorem observe (from' : Provenance orderId instantId c) (observation : Observation) :
    Provenance orderId instantId (c.observe observation) :=
  { from' with }

theorem publishCurrentState (from' : Provenance orderId instantId c) :
    Provenance orderId instantId c.publishCurrentState := by
  rw [Config.publishCurrentState_eq]
  exact { from' with }

theorem updateState (from' : Provenance orderId instantId c) {newPartialState : PartialState}
    (publishImmediately : Bool)
    (states : ∀ states, newPartialState.actionStates = some states →
      ∀ state ∈ states, orderId state.actionId ∨ instantId state.actionId) :
    Provenance orderId instantId (c.updateState newPartialState publishImmediately) := by
  rw [Config.updateState_eq]
  refine { from' with actionStates := ?_ }
  cases given : newPartialState.actionStates with
  | none => simpa [State.merge, given] using from'.actionStates
  | some added => simpa [State.merge, given] using states added given

theorem traverseEdge (from' : Provenance orderId instantId c) {edge : Edge}
    (held : edge.ActionsFrom orderId) :
    Provenance orderId instantId (c.traverseEdge edge) := by
  unfold Config.traverseEdge
  split
  · exact from'.throwTypeError
  · next order current =>
    refine call (observe ?_ _) (by simp [Frame.From])
    refine { from' with traversing := ?_ }
    intro context member
    rcases List.mem_cons.mp member with rfl | member
    · exact ⟨held, fun node found =>
        (from'.currentOrder order current).1 node (mem_of_getEdgeEndNode found)⟩
    · exact from'.traversing context member

theorem processEdgeActions (from' : Provenance orderId instantId c) {edge : Edge}
    (held : edge.ActionsFrom orderId) (afterAction : Option Action) :
    Provenance orderId instantId (c.processEdgeActions edge afterAction) := by
  unfold Config.processEdgeActions
  split
  · exact from'.traverseEdge held
  · next scheduled =>
    exact from'.call (by simpa [Frame.From] using ⟨held, held _ (mem_of_scheduleAfter_hard scheduled)⟩)
  · next scheduled =>
    refine from'.call ?_
    intro frame member
    obtain ⟨action, included, rfl⟩ := List.mem_map.mp member
    exact ⟨held, held action (subset_of_scheduleAfter_parallel scheduled included)⟩

theorem processEdge (from' : Provenance orderId instantId c) (node : Node) :
    Provenance orderId instantId (c.processEdge node) := by
  unfold Config.processEdge
  split
  · exact from'.throwTypeError
  · next order current =>
    split
    · exact from'
    · next edge found =>
      split
      · next released =>
        exact from'.processEdgeActions
          ((from'.currentOrder order current).2 edge (mem_of_getTrailingEdge found) released) none
      · exact from'

theorem processNodeActions (from' : Provenance orderId instantId c) {node : Node}
    (held : node.ActionsFrom orderId) (afterAction : Option Action) :
    Provenance orderId instantId (c.processNodeActions node afterAction) := by
  unfold Config.processNodeActions
  split
  · exact from'.processEdge node
  · next scheduled =>
    exact from'.call (by simpa [Frame.From] using ⟨held, held _ (mem_of_scheduleAfter_hard scheduled)⟩)
  · next scheduled =>
    refine from'.call ?_
    intro frame member
    obtain ⟨action, included, rfl⟩ := List.mem_map.mp member
    exact ⟨held, held action (subset_of_scheduleAfter_parallel scheduled included)⟩

theorem nodeTraversed (from' : Provenance orderId instantId c) {node : Node}
    (held : node.ActionsFrom orderId) (traversedEdge : Option Edge) :
    Provenance orderId instantId (c.nodeTraversed node traversedEdge) := by
  unfold Config.nodeTraversed
  exact processNodeActions (observe (from'.updateState true (by simp)) _) held none

theorem processNode (from' : Provenance orderId instantId c) {node : Node}
    (held : node.released → node.ActionsFrom orderId) {traversedEdge : Option Edge}
    (traversed : ∀ edge, traversedEdge = some edge → edge.ActionsFrom orderId) :
    Provenance orderId instantId (c.processNode node traversedEdge) := by
  unfold Config.processNode
  split
  · exact from'
  · next released =>
    have held := held (by simpa using released)
    split
    · refine { from' with pausedNode := ?_ }
      rintro _ ⟨⟩
      exact held
    · split
      · exact from'.nodeTraversed held none
      · next edge =>
        exact from'.call (by simpa [Frame.From] using ⟨traversed edge rfl, held⟩)

theorem executeOrderAction (from' : Provenance orderId instantId c) {action : Action}
    {scope : ActionScope} {stopDriving : Bool} (order : scope ≠ .instant)
    (held : ActionContext.From orderId instantId { action := action, scope := scope }) :
    Provenance orderId instantId (c.executeOrderAction action scope stopDriving) := by
  unfold Config.executeOrderAction
  split
  · exact from'.throwTypeError
  · refine call (observe ?_ _) (by simp [Frame.From])
    refine { from' with executing := ?_, executed := ?_ }
    · intro context member
      rcases List.mem_cons.mp member with rfl | member
      · exact held
      · exact from'.executing context member
    · intro context member instant
      rcases List.mem_cons.mp member with rfl | member
      · exact absurd instant order
      · exact from'.executed context member instant

theorem finishEdgeAction (from' : Provenance orderId instantId c) {edge : Edge}
    (held : edge.ActionsFrom orderId) (action : Action) (actions : List Action) :
    Provenance orderId instantId (c.finishEdgeAction edge action actions) := by
  unfold Config.finishEdgeAction
  split
  · exact from'.call (by simpa [Frame.From] using held)
  · split
    · exact from'.throwTypeError
    · exact call (from'.observe _) (by simpa [Frame.From] using held)

theorem nodeActionEnded (from' : Provenance orderId instantId c) {node : Node}
    (held : node.ActionsFrom orderId) (action : Action) :
    Provenance orderId instantId (c.nodeActionEnded node action) := by
  unfold Config.nodeActionEnded
  split
  · exact from'.processNodeActions held _
  · next continued =>
    exact from'.call (by simpa [Frame.From] using
      ⟨held, held _ (mem_of_continuation_executeHard continued)⟩)
  · exact from'.processEdge node
  · exact from'

theorem edgeActionEnded (from' : Provenance orderId instantId c) {edge : Edge}
    (held : edge.ActionsFrom orderId) (action : Action) :
    Provenance orderId instantId (c.edgeActionEnded edge action) := by
  unfold Config.edgeActionEnded
  split
  · exact from'.processEdgeActions held _
  · next continued =>
    exact from'.call (by simpa [Frame.From] using
      ⟨held, held _ (mem_of_continuation_executeHard continued)⟩)
  · exact from'.traverseEdge held
  · exact from'

theorem reportActionStatus (from' : Provenance orderId instantId c) {context : ActionContext}
    (held : context.From orderId instantId) {change : ActionStatusChangeInfo}
    (vehicle : change.linkedState.isVehicleState) :
    Provenance orderId instantId (c.reportActionStatus context change) := by
  obtain ⟨state, ref, agv, states, -⟩ := Config.reportActionStatus_agv c context change vehicle
  constructor <;> simp only [agv, Config.reportActionStatus_stack,
    Config.reportActionStatus_executing, Config.reportActionStatus_traversing]
  case stack => exact from'.stack
  case executing => exact from'.executing
  case executed => exact from'.executed
  case traversing => exact from'.traversing
  case pausedNode => exact from'.pausedNode
  case currentOrder => exact from'.currentOrder
  case instantActions => exact from'.instantActions
  case cancelOrderContext => exact from'.cancelOrderContext
  case endedPublishCount => exact from'.endedPublishCount
  case actionStates =>
    intro reported member
    rw [states] at member
    rcases mem_newActionStates member with rfl | member
    · exact held.actionId
    · exact from'.actionStates reported member

theorem instantActionEnded (from' : Provenance orderId instantId c) (action : Action) :
    Provenance orderId instantId (c.instantActionEnded action) := by
  have spliced : Provenance orderId instantId
      { c with agv :=
          { c.agv with
            currentInstantActions :=
              Config.spliceAction c.agv.currentInstantActions action } } :=
    { from' with
      instantActions := fun remaining member =>
        from'.instantActions remaining (spliceAction_subset _ _ member) }
  unfold Config.instantActionEnded
  simp only
  split
  · exact spliced.call (by simp [Frame.From])
  · split
    · exact spliced
    · next nextHardAction found =>
      split
      · exact spliced.call (by
          simpa [Frame.From] using from'.instantActions nextHardAction
            (mem_of_getHardBlockingActionAfterParallelActions found))
      · exact spliced

theorem onOrderActionsCanceled (from' : Provenance orderId instantId c) :
    Provenance orderId instantId c.onOrderActionsCanceled := by
  unfold Config.onOrderActionsCanceled
  refine call (observe ?_ _) (by simp [Frame.From])
  exact { from' with }

theorem orderActionCanceled (from' : Provenance orderId instantId c) :
    Provenance orderId instantId c.orderActionCanceled := by
  unfold Config.orderActionCanceled
  split
  · exact from'.throwTypeError
  · split
    · exact from'.onOrderActionsCanceled
    · exact from'

theorem updateActionStatus (from' : Provenance orderId instantId c) {context : ActionContext}
    (held : context.From orderId instantId) {change : ActionStatusChangeInfo}
    (vehicle : change.linkedState.isVehicleState) :
    Provenance orderId instantId (c.updateActionStatus context change) := by
  have reported := from'.reportActionStatus held vehicle
  unfold Config.updateActionStatus
  simp only
  split
  · exact reported
  · unfold ActionContext.From at held
    split
    · exact reported.instantActionEnded context.action
    · next node scope =>
      rw [scope] at held
      split
      · exact reported.orderActionCanceled
      · exact reported.nodeActionEnded held.1 context.action
    · next edge scope =>
      rw [scope] at held
      split
      · exact reported.orderActionCanceled
      · exact reported.edgeActionEnded held.1 context.action

theorem cancelOrder (from' : Provenance orderId instantId c) {context : ActionContext}
    (instant : context.scope = .instant) (held : instantId context.action.actionId) :
    Provenance orderId instantId (c.cancelOrder context) := by
  have from'' : context.From orderId instantId := by simpa [ActionContext.From, instant] using held
  unfold Config.cancelOrder
  refine call (updateActionStatus ?_ from'' PartialState.isVehicleState_empty)
    (by simp [Frame.From])
  refine { from' with cancelOrderContext := ?_, actionStates := ?_ }
  · rintro _ ⟨⟩
    exact ⟨instant, held⟩
  · intro state member
    obtain ⟨original, included, rfl⟩ := List.mem_map.mp member
    rw [Config.failWaitingAction_actionId]
    exact from'.actionStates original included

theorem cancelOrderAction (from' : Provenance orderId instantId c) (state : ActionState)
    (states : List ActionState) (hasActionsToBeCanceled : Bool) :
    Provenance orderId instantId (c.cancelOrderAction state states hasActionsToBeCanceled) := by
  unfold Config.cancelOrderAction
  split
  · split
    · exact from'.throwTypeError
    · exact call (from'.observe _) (by simp [Frame.From])
  · exact from'.call (by simp [Frame.From])

theorem processInstantActionChunk (from' : Provenance orderId instantId c)
    (afterAction : Option Action) (skipInitialHard : Bool) :
    Provenance orderId instantId (c.processInstantActionChunk afterAction skipInitialHard) := by
  unfold Config.processInstantActionChunk
  simp only
  split
  · split
    · refine from'.call ?_
      intro frame member
      obtain rfl := List.mem_singleton.mp member
      cases found : c.agv.currentInstantActions[(findIndexFrom isHard
        (startIndex c.agv.currentInstantActions afterAction)
        c.agv.currentInstantActions).getD c.agv.currentInstantActions.length]? with
      | none => simp [Frame.From]
      | some action =>
          simpa [Frame.From] using from'.instantActions action (List.mem_of_getElem? found)
    · exact from'
  · exact from'.call (by simp [Frame.From])

theorem executeInstantAction (from' : Provenance orderId instantId c) {context : ActionContext}
    (held : context.From orderId instantId)
    (executes : context.action.actionType ≠ "cancelOrder") :
    Provenance orderId instantId (c.executeInstantAction context) := by
  unfold Config.executeInstantAction
  refine call (observe ?_ _) (by simp [Frame.From])
  refine { from' with executing := ?_, executed := ?_ }
  · intro other member
    rcases List.mem_cons.mp member with rfl | member
    · exact held
    · exact from'.executing other member
  · intro other member instant
    rcases List.mem_cons.mp member with rfl | member
    · exact executes
    · exact from'.executed other member instant

theorem resetEndedPublishCount (from' : Provenance orderId instantId c) {action : Action}
    (held : instantId action.actionId) :
    Provenance orderId instantId (c.resetEndedPublishCount action) := by
  refine { from' with endedPublishCount := ?_ }
  intro entry member
  rcases mem_setEntry member with rfl | member
  · exact held
  · exact from'.endedPublishCount entry member

theorem processInstantAction (from' : Provenance orderId instantId c) {action : Option Action}
    (held : ∀ a, action = some a → instantId a.actionId) (stopDriving : Bool) :
    Provenance orderId instantId (c.processInstantAction action stopDriving) := by
  unfold Config.processInstantAction
  cases action with
  | none => exact (from'.observe _).throwTypeError
  | some action =>
      have held := held action rfl
      have counted := (from'.observe (.instantActionProcessed (some action))).resetEndedPublishCount
        held
      simp only
      split
      · exact (from'.observe _).throwTypeError
      split
      · exact counted.updateActionStatus (by exact held) PartialState.isVehicleState_empty
      · split
        · exact counted.cancelOrder rfl held
        · next executes => exact counted.executeInstantAction (by exact held) executes

theorem addError (from' : Provenance orderId instantId c) (error : Error) :
    Provenance orderId instantId (c.addError error) := by
  unfold Config.addError
  refine updateState ?_ true ?_
  · exact { from' with }
  · simp

theorem addInstantActionError (from' : Provenance orderId instantId c) (error : Error) :
    Provenance orderId instantId (c.addInstantActionError error) := by
  unfold Config.addInstantActionError
  refine addError ?_ error
  exact { from' with }

theorem updateEdgeTraversed (from' : Provenance orderId instantId c)
    {context : TraverseEdgeContext} (held : context.From orderId) :
    Provenance orderId instantId (c.updateEdgeTraversed context) := by
  unfold Config.updateEdgeTraversed
  split
  · exact from'
  · split
    · exact from'.throwTypeError
    · next endNode found =>
      refine from'.processNode (held.2 endNode found) ?_
      rintro _ ⟨⟩
      exact held.1

theorem acceptInstantActions (from' : Provenance orderId instantId c) (adapter : AdapterAnswers)
    {actions : List Action}
    (held : ∀ action ∈ acceptedInstantActions (c.acceptInstantActions adapter actions).log,
      instantId action.actionId) :
    Provenance orderId instantId (c.acceptInstantActions adapter actions) := by
  obtain ⟨accepted, agv, published, inFlight, observations, same, ⟨_, _, _, rfl⟩, -, queued, -⟩ :=
    Config.acceptInstantActions_eq c adapter actions
  rw [same] at held ⊢
  refine { from' with instantActions := ?_ }
  intro action member
  rcases List.mem_append.mp member with member | member
  · exact from'.instantActions action member
  · refine held action ?_
    rw [acceptedInstantActions_append, queued]
    exact List.mem_append_right _ member

theorem processInstantActions (from' : Provenance orderId instantId c)
    (adapter : AdapterAnswers) {message : InstantActions}
    (held : ∀ action ∈ acceptedInstantActions (c.acceptInstantActions adapter message.actions).log,
      instantId action.actionId) :
    Provenance orderId instantId (c.processInstantActions message adapter) := by
  have accepted := from'.acceptInstantActions adapter held
  unfold Config.processInstantActions
  simp only
  split
  · exact from'.throwTypeError
  split
  · exact accepted
  · exact accepted.call (by simp [Frame.From])

theorem replaceNode (from' : Provenance orderId instantId c) {updated : Node}
    (held : updated.ActionsFrom orderId) :
    Provenance orderId instantId (c.replaceNode updated) := by
  have replaced : ∀ {node : Node}, node.ActionsFrom orderId →
      (AgvController.replaceNode updated node).ActionsFrom orderId := by
    intro node before
    unfold AgvController.replaceNode
    split
    · exact held
    · exact before
  refine { from' with executing := ?_, executed := ?_, traversing := ?_, pausedNode := ?_ }
  · intro context member
    obtain ⟨original, included, rfl⟩ := List.mem_map.mp member
    have before := from'.executing original included
    unfold ActionContext.replaceNode
    unfold ActionContext.From at before
    split
    · next scope =>
      rw [scope] at before
      exact ⟨replaced before.1, before.2⟩
    · exact from'.executing original included
    · exact from'.executing original included
  · intro context member
    obtain ⟨original, included, rfl⟩ := List.mem_map.mp member
    unfold ActionContext.replaceNode
    split
    · exact fun instant => by cases instant
    · exact from'.executed original included
    · exact from'.executed original included
  · intro context member
    obtain ⟨original, included, rfl⟩ := List.mem_map.mp member
    obtain ⟨edge, endNode⟩ := from'.traversing original included
    refine ⟨edge, fun node found released => ?_⟩
    obtain ⟨before, same, rfl⟩ := Option.map_eq_some_iff.mp found
    unfold AgvController.replaceNode at released ⊢
    split
    · exact held
    · next other =>
      rw [if_neg other] at released
      exact endNode before same released
  · intro node paused
    obtain ⟨original, before, rfl⟩ := Option.map_eq_some_iff.mp paused
    exact replaced (from'.pausedNode original before)

end Provenance

/-! ## Orders -/

/-- An order is from accepted ones as soon as its released actions are. -/
private theorem Order.actionsFrom_of_released {order : Order}
    (held : ∀ action ∈ order.releasedActions, orderId action.actionId) :
    order.ActionsFrom orderId := by
  constructor
  · intro node member released action included
    refine held action (List.mem_append_left _ ?_)
    exact List.mem_flatMap.mpr ⟨node, List.mem_filter.mpr ⟨member, released⟩, included⟩
  · intro edge member released action included
    refine held action (List.mem_append_right _ ?_)
    exact List.mem_flatMap.mpr ⟨edge, List.mem_filter.mpr ⟨member, released⟩, included⟩

theorem Order.ActionsFrom.releasedActions {order : Order} (held : order.ActionsFrom orderId) :
    ∀ action ∈ order.releasedActions, orderId action.actionId := by
  intro action member
  rcases List.mem_append.mp member with member | member
  · obtain ⟨node, selected, included⟩ := List.mem_flatMap.mp member
    obtain ⟨member, released⟩ := List.mem_filter.mp selected
    exact held.1 node member released action included
  · obtain ⟨edge, selected, included⟩ := List.mem_flatMap.mp member
    obtain ⟨member, released⟩ := List.mem_filter.mp selected
    exact held.2 edge member released action included

theorem beforeHorizon_subset {Element : Type} (released : Element → Bool)
    (elements : List Element) : beforeHorizon released elements ⊆ elements := by
  unfold beforeHorizon
  split
  · exact fun element member => member
  · exact List.take_subset _ _

/-- Stitching mixes the actions of two orders from accepted ones. -/
private theorem stitchedOrder_actionsFrom {currentOrder order : Order} {baseEnd : Node}
    (current : currentOrder.ActionsFrom orderId) (added : order.ActionsFrom orderId)
    (stitched : (stitchedBaseEnd baseEnd order).ActionsFrom orderId) :
    (stitchedOrder currentOrder baseEnd order).ActionsFrom orderId := by
  constructor
  · intro node member released
    rcases List.mem_append.mp member with member | member
    · obtain ⟨original, included, rfl⟩ := List.mem_map.mp member
      unfold AgvController.replaceNode at released ⊢
      split
      · exact stitched
      · next other =>
        rw [if_neg other] at released
        exact current.1 original (beforeHorizon_subset _ _ included) released
    · exact added.1 node (List.mem_of_mem_tail member) released
  · intro edge member released
    rcases List.mem_append.mp member with member | member
    · exact current.2 edge (beforeHorizon_subset _ _ member) released
    · exact added.2 edge member released

private theorem stitchedBaseEnd_actionsFrom {baseEnd : Node} {order : Order}
    (held : baseEnd.ActionsFrom orderId) (added : order.ActionsFrom orderId)
    (valid : validateOrderConstraints order = .ok ()) :
    (stitchedBaseEnd baseEnd order).ActionsFrom orderId := by
  obtain ⟨firstNode, nodes, same, released⟩ := head_released_of_validateOrderConstraints valid
  intro action member
  rcases List.mem_append.mp member with member | member
  · exact held action member
  · rw [same] at member
    exact added.1 firstNode (by simp [same]) released action member

theorem mem_getActionStates {order : Order} {state : ActionState}
    (member : state ∈ getActionStates order) :
    ∃ action ∈ order.releasedActions,
      state.actionId = action.actionId ∧ state.actionStatus = .waiting := by
  obtain ⟨action, included, rfl⟩ := List.mem_map.mp member
  exact ⟨action, included, rfl, rfl⟩

namespace Provenance

variable {c : Config}

theorem beginOrder (from' : Provenance orderId instantId c) (trajectory : TrajectoryHandler)
    {order : Order} {mode : AcceptMode} (added : order.ActionsFrom orderId)
    (notStitch : mode ≠ .stitch) :
    Provenance orderId instantId (c.beginOrder trajectory order mode) := by
  have states : (c.agv.acceptedState trajectory order mode).actionStates =
      some (c.agv.getInstantActionStates ++ getActionStates order) := by
    cases mode with
    | new | update => rfl
    | stitch => exact absurd rfl notStitch
  refine updateState ?_ true ?_
  · refine { from' with currentOrder := ?_ }
    rintro _ ⟨⟩
    exact added
  · rw [states]
    rintro _ ⟨⟩ state member
    rcases List.mem_append.mp member with member | member
    · exact from'.actionStates state (List.mem_of_mem_filter member)
    · obtain ⟨action, included, same, -⟩ := mem_getActionStates member
      exact .inl (same ▸ added.releasedActions action included)

theorem stitchOrder (from' : Provenance orderId instantId c) (trajectory : TrajectoryHandler)
    {currentOrder order : Order} {baseEnd : Node}
    (current : c.agv.currentOrder = some currentOrder)
    (found : currentBaseEnd currentOrder = some baseEnd) (added : order.ActionsFrom orderId)
    (valid : validateOrderConstraints order = .ok ()) :
    Provenance orderId instantId (c.stitchOrder trajectory currentOrder baseEnd order) := by
  have held := from'.currentOrder currentOrder current
  obtain ⟨member, released⟩ := currentBaseEnd_spec found
  have stitched : (stitchedBaseEnd baseEnd order).ActionsFrom orderId :=
    stitchedBaseEnd_actionsFrom (held.1 baseEnd member released) added valid
  have replaced := (from'.observe (.orderAccepted .stitch order)).replaceNode stitched
  refine updateState ?_ true ?_
  · refine { replaced with currentOrder := ?_ }
    rintro _ ⟨⟩
    exact stitchedOrder_actionsFrom held added stitched
  · rintro _ ⟨⟩ state member
    rcases List.mem_append.mp member with member | member
    · exact from'.actionStates state member
    · obtain ⟨action, included, same, -⟩ := mem_getActionStates member
      exact .inl (same ▸ added.releasedActions action included)

theorem acceptOrder (from' : Provenance orderId instantId c) (trajectory : TrajectoryHandler)
    {order : Order} {mode : AcceptMode} (added : order.ActionsFrom orderId)
    (valid : validateOrderConstraints order = .ok ()) :
    Provenance orderId instantId (c.acceptOrder trajectory order mode) := by
  unfold Config.acceptOrder
  split
  · have begun : Provenance orderId instantId (c.beginOrder trajectory order .new) :=
      from'.beginOrder trajectory added (by simp)
    split
    · exact begun.throwTypeError
    · next first found => exact begun.processNode (added.1 first (List.mem_of_head? found)) (by simp)
  · have begun : Provenance orderId instantId (c.beginOrder trajectory order .update) :=
      from'.beginOrder trajectory added (by simp)
    split
    · exact begun.throwTypeError
    · next first found => exact begun.processNode (added.1 first (List.mem_of_head? found)) (by simp)
  · split
    · exact (from'.observe _).throwTypeError
    · next currentOrder current =>
      split
      · exact (from'.observe _).throwTypeError
      · next baseEnd found =>
        have stitched := from'.stitchOrder trajectory current found added valid
        simp only
        split
        · exact stitched.processEdge _
        · exact stitched

/-! ## Steps -/

theorem resume (from' : Provenance orderId instantId c) {frame : Frame}
    (held : frame.From orderId instantId) :
    Provenance orderId instantId (c.resume frame) := by
  cases frame with
  | adapter => exact from'
  | finishEdgeActions edge actions =>
      cases actions with
      | nil => exact from'
      | cons action actions => exact from'.finishEdgeAction held action actions
  | nodeTraversed node traversedEdge => exact from'.nodeTraversed held traversedEdge
  | processNodeAction => exact from'.executeOrderAction (by simp) held
  | processEdgeAction => exact from'.executeOrderAction (by simp) held
  | cancelOrderActions states hasActionsToBeCanceled =>
      cases states with
      | nil =>
          cases hasActionsToBeCanceled with
          | true => exact from'
          | false => exact from'.onOrderActionsCanceled
      | cons state states => exact from'.cancelOrderAction state states hasActionsToBeCanceled
  | processInstantActionChunk afterAction skipInitialHard =>
      exact from'.processInstantActionChunk afterAction skipInitialHard
  | processInstantActions i stopIndex stopDriving =>
      simp only [Config.resume]
      split
      · exact (from'.call (by simp [Frame.From])).processInstantAction
          (fun action found => from'.instantActions action (List.mem_of_getElem? found)) _
      · exact from'
  | processInstantAction action stopDriving =>
      refine from'.processInstantAction (fun a found => ?_) _
      subst found
      exact held
  | resumePausedNode =>
      simp only [Config.resume, Config.resumePausedNode]
      split
      · exact from'
      · next pausedNode paused =>
        have resumed : Provenance orderId instantId
            { c with agv := { c.agv with currentPausedNode := none } } :=
          { from' with pausedNode := by simp }
        split
        · exact resumed
        · exact resumed.processNode (fun _ => from'.pausedNode pausedNode paused) (by simp)

theorem proceed (from' : Provenance orderId instantId c) :
    Provenance orderId instantId c.proceed := by
  unfold Config.proceed
  split
  · exact from'
  · next frame stack pending =>
    have popped : Provenance orderId instantId { c with stack := stack } :=
      { from' with
        stack := fun other member => from'.stack other (pending ▸ List.mem_cons_of_mem _ member) }
    exact popped.resume (from'.stack frame (by simp [pending]))

theorem updatePartialState (from' : Provenance orderId instantId c) {newState : PartialState}
    (noActions : newState.actionStates = none) (reportImmediately : Bool) :
    Provenance orderId instantId (c.updatePartialState newState reportImmediately) := by
  unfold Config.updatePartialState
  simp only
  refine updateState ?_ _ ?_
  · rw [AgvController.cloneState_snd]
    exact { from' with }
  · rw [AgvController.cloneState_fst]
    simp [noActions]

theorem updateErrors (from' : Provenance orderId instantId c) (error : Error)
    (mode : UpdateMode) (reportImmediately : Bool) :
    Provenance orderId instantId (c.updateErrors error mode reportImmediately) := by
  unfold Config.updateErrors
  split
  · exact from'.throwTypeError
  · exact from'
  · exact from'.updatePartialState rfl _

theorem stopped (from' : Provenance orderId instantId c) (context : StopTraverseContext) :
    Provenance orderId instantId (c.stopped context) := by
  have emptied : Provenance orderId instantId
      (({ c.observe (.stopped context c.agv.cancelOrderContext) with
          agv := { c.agv with cancelOrderContext := none } }).updateState
        { nodeStates := some [], edgeStates := some [] } false) := by
    refine updateState ?_ false ?_
    · exact { from' with cancelOrderContext := by simp }
    · simp
  unfold Config.stopped
  simp only
  split
  · exact emptied.throwTypeError
  · next cancelOrderContext pending =>
    obtain ⟨instant, held⟩ := from'.cancelOrderContext cancelOrderContext pending
    exact emptied.updateActionStatus (by simpa [ActionContext.From, instant] using held)
      PartialState.isVehicleState_empty

theorem cleanupInstantActionStates (from' : Provenance orderId instantId c) :
    Provenance orderId instantId c.cleanupInstantActionStates :=
  { from' with
    endedPublishCount := by
      intro entry member
      obtain ⟨original, included, kept⟩ := List.mem_filterMap.mp member
      have same : original.1 = entry.1 := by
        split at kept
        · obtain ⟨_, _, rfl⟩ := Option.map_eq_some_iff.mp kept
          rfl
        · cases kept
          rfl
      exact same ▸ from'.endedPublishCount original included
    actionStates := fun state member => from'.actionStates state (List.mem_of_mem_filter member) }

theorem adapterReports (from' : Provenance orderId instantId c) {context : ActionContext}
    (held : context ∈ c.executing) {change : ActionStatusChangeInfo}
    (vehicle : change.linkedState.isVehicleState) :
    Provenance orderId instantId (c.adapterReports context change) := by
  have reported : Provenance orderId instantId
      { c with
        executing :=
          if change.actionStatus.isEnded then c.executing.erase context else c.executing } := by
    have kept : ∀ other ∈ (if change.actionStatus.isEnded then c.executing.erase context
        else c.executing), other ∈ c.executing := by
      intro other member
      split at member
      · exact List.mem_of_mem_erase member
      · exact member
    exact
      { from' with
        executing := fun other member => from'.executing other (kept other member)
        executed := fun other member => from'.executed other (kept other member) }
  have held := from'.executing context held
  unfold Config.adapterReports Config.updateActionStatusCallback
  simp only
  split
  · exact (reported.call (by simp [Frame.From])).updateActionStatus held vehicle
  · exact reported.updateActionStatus held vehicle

end Provenance

/-- Everything the controller or its adapter holds comes from what it accepted. -/
def Config.Provenant (c : Config) : Prop :=
  Provenance (· ∈ c.orderIds) (· ∈ c.instantIds) c

namespace Config

variable {c : Config}

theorem Provenant.initial (limit : Nat) : (Config.initial limit).Provenant := by
  constructor <;> simp [Config.initial, AgvController.initial]

theorem Provenant.of_quiet {next : Config} (quiet : c.Quiet next)
    (held : Provenance (· ∈ c.orderIds) (· ∈ c.instantIds) next) : next.Provenant := by
  unfold Provenant
  rw [quiet.orderIds, quiet.instantIds]
  exact held

theorem Provenant.processOrder (valid : c.Provenant) (order : Order) (adapter : AdapterAnswers) :
    (c.processOrder order adapter).Provenant := by
  have received : Provenance (· ∈ c.orderIds) (· ∈ c.instantIds)
      { c with received := c.received + 1 } := { valid with }
  cases decided : c.agv.decideOrder adapter (allocateNodes c.received order) with
  | accept mode =>
      have quiet := processOrder_accept_quiet c decided
      unfold Provenant
      rw [quiet.orderIds, orderIds_observe_orderAccepted, quiet.instantIds,
        instantIds_observe_orderAccepted]
      unfold Config.processOrder
      simp only [decided]
      refine (received.mono (fun id => List.mem_append_left _) fun id member => member).acceptOrder
        _ (Order.actionsFrom_of_released ?_) (decideOrder_accept decided).valid
      intro action member
      exact List.mem_append_right _ (List.mem_map_of_mem member)
  | reject error =>
      have quiet : c.Quiet (c.processOrder order adapter) :=
        processOrder_quiet c (by simp [decided])
      unfold Provenant
      rw [quiet.orderIds, quiet.instantIds]
      unfold Config.processOrder
      simp only [decided]
      exact (received.addError error).observe _
  | discard =>
      have quiet : c.Quiet (c.processOrder order adapter) :=
        processOrder_quiet c (by simp [decided])
      unfold Provenant
      rw [quiet.orderIds, quiet.instantIds]
      unfold Config.processOrder
      simp only [decided]
      exact (received.updateState true (by simp)).observe _

theorem Provenant.processInstantActions (valid : c.Provenant) (message : InstantActions)
    (adapter : AdapterAnswers) : (c.processInstantActions message adapter).Provenant := by
  rcases processInstantActions_log c message adapter with crashed | log
  · rw [crashed]
    exact valid.throwTypeError
  obtain ⟨accepted, -, instants, orders⟩ := processInstantActions_ids c message adapter
  unfold Provenant
  rw [instants, orders]
  refine (valid.mono (fun id member => member) fun id => List.mem_append_left _).processInstantActions
    adapter fun action member => ?_
  rw [← instants, instantIds, log]
  exact List.mem_map_of_mem member

theorem Provenant.perform (valid : c.Provenant) {event : Event}
    (contract : AdapterContract c event) : (c.perform event).Provenant := by
  cases event with
  | order order adapter => exact valid.processOrder order adapter
  | instantActions message adapter => exact valid.processInstantActions message adapter
  | proceed => exact Provenant.of_quiet (proceed_quiet c) (Provenance.proceed valid)
  | invalidOrder payload message =>
      refine Provenant.of_quiet (processInvalidOrder_quiet c payload message) ?_
      simp only [Config.perform, processInvalidOrder]
      split
      · exact Provenance.throwTypeError valid
      · exact (Provenance.addError valid _).observe _
  | invalidInstantActions payload message =>
      refine Provenant.of_quiet (processInvalidInstantActions_quiet c payload message) ?_
      simp only [Config.perform, processInvalidInstantActions]
      split
      · exact Provenance.throwTypeError valid
      · exact Provenance.addInstantActionError valid _
  | updateActionStatus context change =>
      exact Provenant.of_quiet (adapterReports_quiet c context change)
        (Provenance.adapterReports valid contract.1 contract.2.2)
  | edgeTraversed context =>
      refine Provenant.of_quiet (perform_quiet c rfl) ?_
      refine Provenance.updateEdgeTraversed ?_ (Provenance.traversing valid context contract)
      exact
        { valid with
          traversing := fun other member =>
            Provenance.traversing valid other (List.mem_of_mem_erase member) }
  | stopped context =>
      refine Provenant.of_quiet (perform_quiet c rfl) ?_
      have called : Provenance (· ∈ c.orderIds) (· ∈ c.instantIds)
          { c with stopping := c.stopping.erase context } := { valid with }
      exact called.stopped context
  | drivingToNextNode nextNode =>
      exact Provenant.of_quiet (perform_quiet c rfl) (Provenance.updateState valid true (by simp))
  | updatePartialState newState reportImmediately =>
      exact Provenant.of_quiet (perform_quiet c rfl)
        (Provenance.updatePartialState valid contract.1 reportImmediately)
  | updateErrors error mode reportImmediately =>
      exact Provenant.of_quiet (perform_quiet c rfl)
        (Provenance.updateErrors valid error mode reportImmediately)
  | publishTimer =>
      exact Provenant.of_quiet (perform_quiet c rfl) (Provenance.publishCurrentState valid)
  | published succeeded =>
      refine Provenant.of_quiet (perform_quiet c rfl) ?_
      cases succeeded with
      | false => exact { valid with }
      | true => exact Provenance.cleanupInstantActionStates { valid with }
  | connection online =>
      refine Provenant.of_quiet (perform_quiet c rfl) ?_
      simp only [Config.perform]
      split
      · exact Provenance.publishCurrentState { valid with }
      · exact { valid with }

end Config

end Vda5050
