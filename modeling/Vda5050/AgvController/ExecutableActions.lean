import Vda5050.AgvController.Provenance

/-!
# Actions the adapter can execute

An order or an instant action is accepted only if the adapter finds its actions
executable. Whatever the controller holds from then on, stitched or resumed, consists of
such actions, so that no others are ever handed over.
-/

set_option autoImplicit false

namespace Vda5050

open AgvController

/-- The actions an adapter can execute, wherever in an order they occur. -/
structure Capabilities where
  node : Action → Prop
  edge : Action → Prop
  instant : Action → Prop

namespace Capabilities

/-- The action of the context can be executed. -/
def Cover (capabilities : Capabilities) (context : ActionContext) : Prop :=
  match context.scope with
  | .instant => capabilities.instant context.action
  | .node _ => capabilities.node context.action
  | .edge _ => capabilities.edge context.action

/-- Cancelations are up to the controller. -/
def Accept (capabilities : Capabilities) (action : Action) : Prop :=
  action.actionType ≠ "cancelOrder" → capabilities.instant action

end Capabilities

variable {capabilities : Capabilities}

def Node.ExecutableBy (capabilities : Capabilities) (node : Node) : Prop :=
  ∀ action ∈ node.actions, capabilities.node action

def Edge.ExecutableBy (capabilities : Capabilities) (edge : Edge) : Prop :=
  ∀ action ∈ edge.actions, capabilities.edge action

def Order.ExecutableBy (capabilities : Capabilities) (order : Order) : Prop :=
  (∀ node ∈ order.nodes, node.ExecutableBy capabilities) ∧
    ∀ edge ∈ order.edges, edge.ExecutableBy capabilities

def Frame.ExecutableBy (capabilities : Capabilities) : Frame → Prop
  | .finishEdgeActions edge _ => edge.ExecutableBy capabilities
  | .nodeTraversed node _ => node.ExecutableBy capabilities
  | .processNodeAction node action _ =>
      node.ExecutableBy capabilities ∧ capabilities.node action
  | .processEdgeAction edge action _ =>
      edge.ExecutableBy capabilities ∧ capabilities.edge action
  | .processInstantAction (some action) _ => capabilities.Accept action
  | _ => True

/-- What comes after the action of the context can be executed. -/
def ActionContext.ExecutableBy (capabilities : Capabilities) (context : ActionContext) : Prop :=
  match context.scope with
  | .instant => True
  | .node node => node.ExecutableBy capabilities
  | .edge edge => edge.ExecutableBy capabilities

def TraverseEdgeContext.ExecutableBy (capabilities : Capabilities)
    (context : TraverseEdgeContext) : Prop :=
  context.edge.ExecutableBy capabilities ∧
    ∀ node, context.endNode = some node → node.ExecutableBy capabilities

def Observation.ExecutableBy (capabilities : Capabilities) : Observation → Prop
  | .executeAction context => capabilities.Cover context
  | .instantActionAccepted action => capabilities.Accept action
  | _ => True

/-- The adapter finds nothing executable but actions it can execute. -/
def AgvController.AdapterAnswers.Respects (capabilities : Capabilities)
    (adapter : AdapterAnswers) : Prop :=
  ∀ context, adapter.isActionExecutable context = [] → capabilities.Cover context

def Event.Respects (capabilities : Capabilities) : Event → Prop
  | .order _ adapter | .instantActions _ adapter => adapter.Respects capabilities
  | _ => True

/-- All that is held by the controller and its adapter can be executed, and so could
everything executed. -/
structure HoldsExecutable (capabilities : Capabilities) (c : Config) : Prop where
  stack : ∀ frame ∈ c.stack, frame.ExecutableBy capabilities
  executing : ∀ context ∈ c.executing, context.ExecutableBy capabilities
  traversing : ∀ context ∈ c.traversing, context.ExecutableBy capabilities
  pausedNode : ∀ node, c.agv.currentPausedNode = some node → node.ExecutableBy capabilities
  currentOrder : ∀ order, c.agv.currentOrder = some order → order.ExecutableBy capabilities
  instantActions : ∀ action ∈ c.agv.currentInstantActions, capabilities.Accept action
  log : ∀ observation ∈ c.log, observation.ExecutableBy capabilities

namespace HoldsExecutable

variable {c : Config}

/-! ## Calls and observations -/

theorem throwTypeError (holds : HoldsExecutable capabilities c) :
    HoldsExecutable capabilities c.throwTypeError :=
  { holds with stack := by simp [Config.throwTypeError] }

theorem call (holds : HoldsExecutable capabilities c) {frames : List Frame}
    (called : ∀ frame ∈ frames, frame.ExecutableBy capabilities) :
    HoldsExecutable capabilities (c.call frames) :=
  { holds with
    stack := fun frame member => by
      rcases List.mem_append.mp member with member | member
      · exact called frame member
      · exact holds.stack frame member }

theorem observe (holds : HoldsExecutable capabilities c) {observation : Observation}
    (observed : observation.ExecutableBy capabilities) :
    HoldsExecutable capabilities (c.observe observation) :=
  { holds with
    log := fun other member => by
      rcases List.mem_append.mp member with member | member
      · exact holds.log other member
      · exact List.mem_singleton.mp member ▸ observed }

theorem publishCurrentState (holds : HoldsExecutable capabilities c) :
    HoldsExecutable capabilities c.publishCurrentState := by
  rw [Config.publishCurrentState_eq]
  exact { holds with }

theorem updateState (holds : HoldsExecutable capabilities c) (newPartialState : PartialState)
    (publishImmediately : Bool) :
    HoldsExecutable capabilities (c.updateState newPartialState publishImmediately) := by
  rw [Config.updateState_eq]
  exact { holds with }

/-! ## Nodes and edges -/

theorem traverseEdge (holds : HoldsExecutable capabilities c) {edge : Edge}
    (executable : edge.ExecutableBy capabilities) :
    HoldsExecutable capabilities (c.traverseEdge edge) := by
  unfold Config.traverseEdge
  split
  · exact holds.throwTypeError
  · next order current =>
    refine call (observe ?_ (by exact trivial)) (by simp [Frame.ExecutableBy])
    refine { holds with traversing := fun context member => ?_ }
    rcases List.mem_cons.mp member with rfl | member
    · exact ⟨executable, fun node found =>
        (holds.currentOrder order current).1 node (mem_of_getEdgeEndNode found)⟩
    · exact holds.traversing context member

theorem processEdgeActions (holds : HoldsExecutable capabilities c) {edge : Edge}
    (executable : edge.ExecutableBy capabilities) (afterAction : Option Action) :
    HoldsExecutable capabilities (c.processEdgeActions edge afterAction) := by
  unfold Config.processEdgeActions
  split
  · exact holds.traverseEdge executable
  · next action scheduled =>
    have next : capabilities.edge action := executable _ (mem_of_scheduleAfter_hard scheduled)
    exact holds.call (by simpa [Frame.ExecutableBy] using ⟨executable, next⟩)
  · next scheduled =>
    refine holds.call fun frame member => ?_
    obtain ⟨action, included, rfl⟩ := List.mem_map.mp member
    exact ⟨executable, executable action (subset_of_scheduleAfter_parallel scheduled included)⟩

theorem processEdge (holds : HoldsExecutable capabilities c) (node : Node) :
    HoldsExecutable capabilities (c.processEdge node) := by
  unfold Config.processEdge
  split
  · exact holds.throwTypeError
  · next order current =>
    split
    · exact holds
    · next edge found =>
      split
      · exact holds.processEdgeActions
          ((holds.currentOrder order current).2 edge (mem_of_getTrailingEdge found)) none
      · exact holds

theorem processNodeActions (holds : HoldsExecutable capabilities c) {node : Node}
    (executable : node.ExecutableBy capabilities) (afterAction : Option Action) :
    HoldsExecutable capabilities (c.processNodeActions node afterAction) := by
  unfold Config.processNodeActions
  split
  · exact holds.processEdge node
  · next action scheduled =>
    have next : capabilities.node action := executable _ (mem_of_scheduleAfter_hard scheduled)
    exact holds.call (by simpa [Frame.ExecutableBy] using ⟨executable, next⟩)
  · next scheduled =>
    refine holds.call fun frame member => ?_
    obtain ⟨action, included, rfl⟩ := List.mem_map.mp member
    exact ⟨executable, executable action (subset_of_scheduleAfter_parallel scheduled included)⟩

theorem nodeTraversed (holds : HoldsExecutable capabilities c) {node : Node}
    (executable : node.ExecutableBy capabilities) (traversedEdge : Option Edge) :
    HoldsExecutable capabilities (c.nodeTraversed node traversedEdge) := by
  unfold Config.nodeTraversed
  exact processNodeActions (observe (holds.updateState _ true) (by exact trivial)) executable none

theorem processNode (holds : HoldsExecutable capabilities c) {node : Node}
    (executable : node.ExecutableBy capabilities) {traversedEdge : Option Edge}
    (traversed : ∀ edge, traversedEdge = some edge → edge.ExecutableBy capabilities) :
    HoldsExecutable capabilities (c.processNode node traversedEdge) := by
  unfold Config.processNode
  split
  · exact holds
  · split
    · refine { holds with pausedNode := ?_ }
      rintro _ ⟨⟩
      exact executable
    · split
      · exact holds.nodeTraversed executable none
      · next edge =>
        exact holds.call (by simpa [Frame.ExecutableBy] using ⟨traversed edge rfl, executable⟩)

theorem executeOrderAction (holds : HoldsExecutable capabilities c) {action : Action}
    {scope : ActionScope} {stopDriving : Bool}
    (after : ActionContext.ExecutableBy capabilities { action := action, scope := scope })
    (covered : capabilities.Cover { action := action, scope := scope }) :
    HoldsExecutable capabilities (c.executeOrderAction action scope stopDriving) := by
  unfold Config.executeOrderAction
  split
  · exact holds.throwTypeError
  · refine call (observe ?_ (by exact covered)) (by simp [Frame.ExecutableBy])
    refine { holds with executing := fun context member => ?_ }
    rcases List.mem_cons.mp member with rfl | member
    · exact after
    · exact holds.executing context member

theorem finishEdgeAction (holds : HoldsExecutable capabilities c) {edge : Edge}
    (executable : edge.ExecutableBy capabilities) (action : Action) (actions : List Action) :
    HoldsExecutable capabilities (c.finishEdgeAction edge action actions) := by
  unfold Config.finishEdgeAction
  split
  · exact holds.call (by simpa [Frame.ExecutableBy] using executable)
  · split
    · exact holds.throwTypeError
    · exact call (holds.observe (by exact trivial)) (by simpa [Frame.ExecutableBy] using executable)

/-! ## Action processing -/

theorem nodeActionEnded (holds : HoldsExecutable capabilities c) {node : Node}
    (executable : node.ExecutableBy capabilities) (action : Action) :
    HoldsExecutable capabilities (c.nodeActionEnded node action) := by
  unfold Config.nodeActionEnded
  split
  · exact holds.processNodeActions executable _
  · next nextHardAction continued =>
    have next : capabilities.node nextHardAction :=
      executable _ (mem_of_continuation_executeHard continued)
    exact holds.call (by simpa [Frame.ExecutableBy] using ⟨executable, next⟩)
  · exact holds.processEdge node
  · exact holds

theorem edgeActionEnded (holds : HoldsExecutable capabilities c) {edge : Edge}
    (executable : edge.ExecutableBy capabilities) (action : Action) :
    HoldsExecutable capabilities (c.edgeActionEnded edge action) := by
  unfold Config.edgeActionEnded
  split
  · exact holds.processEdgeActions executable _
  · next nextHardAction continued =>
    have next : capabilities.edge nextHardAction :=
      executable _ (mem_of_continuation_executeHard continued)
    exact holds.call (by simpa [Frame.ExecutableBy] using ⟨executable, next⟩)
  · exact holds.traverseEdge executable
  · exact holds

theorem reportActionStatus (holds : HoldsExecutable capabilities c) (context : ActionContext)
    {change : ActionStatusChangeInfo} (vehicle : change.linkedState.isVehicleState) :
    HoldsExecutable capabilities (c.reportActionStatus context change) := by
  obtain ⟨state, ref, agv, -⟩ := Config.reportActionStatus_agv c context change vehicle
  constructor <;> simp only [agv, Config.reportActionStatus_stack,
    Config.reportActionStatus_executing, Config.reportActionStatus_traversing,
    Config.reportActionStatus_log]
  case stack => exact holds.stack
  case executing => exact holds.executing
  case traversing => exact holds.traversing
  case pausedNode => exact holds.pausedNode
  case currentOrder => exact holds.currentOrder
  case instantActions => exact holds.instantActions
  case log =>
    intro observation member
    rcases List.mem_append.mp member with earlier | last
    · exact holds.log observation earlier
    · obtain rfl := List.mem_singleton.mp last
      trivial

theorem instantActionEnded (holds : HoldsExecutable capabilities c) (action : Action) :
    HoldsExecutable capabilities (c.instantActionEnded action) := by
  have spliced : HoldsExecutable capabilities
      { c with agv :=
          { c.agv with
            currentInstantActions :=
              Config.spliceAction c.agv.currentInstantActions action } } :=
    { holds with
      instantActions := fun remaining member =>
        holds.instantActions remaining (spliceAction_subset _ _ member) }
  unfold Config.instantActionEnded
  simp only
  split
  · exact spliced.call (by simp [Frame.ExecutableBy])
  · split
    · exact spliced
    · next nextHardAction found =>
      split
      · have next : capabilities.Accept nextHardAction :=
          holds.instantActions _ (mem_of_getHardBlockingActionAfterParallelActions found)
        exact spliced.call (by simpa [Frame.ExecutableBy] using next)
      · exact spliced

theorem onOrderActionsCanceled (holds : HoldsExecutable capabilities c) :
    HoldsExecutable capabilities c.onOrderActionsCanceled := by
  unfold Config.onOrderActionsCanceled
  refine call (observe ?_ (by exact trivial)) (by simp [Frame.ExecutableBy])
  exact { holds with }

theorem orderActionCanceled (holds : HoldsExecutable capabilities c) :
    HoldsExecutable capabilities c.orderActionCanceled := by
  unfold Config.orderActionCanceled
  split
  · exact holds.throwTypeError
  · split
    · exact holds.onOrderActionsCanceled
    · exact holds

theorem updateActionStatus (holds : HoldsExecutable capabilities c) {context : ActionContext}
    (after : context.ExecutableBy capabilities) {change : ActionStatusChangeInfo}
    (vehicle : change.linkedState.isVehicleState) :
    HoldsExecutable capabilities (c.updateActionStatus context change) := by
  have reported := holds.reportActionStatus context vehicle
  unfold Config.updateActionStatus
  simp only
  split
  · exact reported
  · unfold ActionContext.ExecutableBy at after
    split
    · exact reported.instantActionEnded context.action
    · next node scope =>
      rw [scope] at after
      split
      · exact reported.orderActionCanceled
      · exact reported.nodeActionEnded after context.action
    · next edge scope =>
      rw [scope] at after
      split
      · exact reported.orderActionCanceled
      · exact reported.edgeActionEnded after context.action

/-! ## Cancelation and instant actions -/

theorem cancelOrder (holds : HoldsExecutable capabilities c) {context : ActionContext}
    (after : context.ExecutableBy capabilities) :
    HoldsExecutable capabilities (c.cancelOrder context) := by
  unfold Config.cancelOrder
  refine call (updateActionStatus ?_ after PartialState.isVehicleState_empty)
    (by simp [Frame.ExecutableBy])
  have observed : HoldsExecutable capabilities (c.observe
      (.cancelOrder context c.agv.hasActiveOrder c.agv.hasCancelingOrder)) :=
    holds.observe trivial
  exact { observed with }

theorem cancelOrderAction (holds : HoldsExecutable capabilities c) (state : ActionState)
    (states : List ActionState) (hasActionsToBeCanceled : Bool) :
    HoldsExecutable capabilities (c.cancelOrderAction state states hasActionsToBeCanceled) := by
  unfold Config.cancelOrderAction
  split
  · split
    · exact holds.throwTypeError
    · exact call (holds.observe (by exact trivial)) (by simp [Frame.ExecutableBy])
  · exact holds.call (by simp [Frame.ExecutableBy])

theorem processInstantActionChunk (holds : HoldsExecutable capabilities c)
    (afterAction : Option Action) (skipInitialHard : Bool) :
    HoldsExecutable capabilities (c.processInstantActionChunk afterAction skipInitialHard) := by
  unfold Config.processInstantActionChunk
  simp only
  split
  · split
    · refine holds.call fun frame member => ?_
      obtain rfl := List.mem_singleton.mp member
      cases found : c.agv.currentInstantActions[(findIndexFrom isHard
        (startIndex c.agv.currentInstantActions afterAction)
        c.agv.currentInstantActions).getD c.agv.currentInstantActions.length]? with
      | none => simp [Frame.ExecutableBy]
      | some action =>
          have next : capabilities.Accept action :=
            holds.instantActions action (List.mem_of_getElem? found)
          simpa [Frame.ExecutableBy] using next
    · exact holds
  · exact holds.call (by simp [Frame.ExecutableBy])

theorem executeInstantAction (holds : HoldsExecutable capabilities c) {context : ActionContext}
    (after : context.ExecutableBy capabilities) (covered : capabilities.Cover context) :
    HoldsExecutable capabilities (c.executeInstantAction context) := by
  unfold Config.executeInstantAction
  refine call (observe ?_ (by exact covered)) (by simp [Frame.ExecutableBy])
  refine { holds with executing := fun other member => ?_ }
  rcases List.mem_cons.mp member with rfl | member
  · exact after
  · exact holds.executing other member

theorem processInstantAction (holds : HoldsExecutable capabilities c) {action : Option Action}
    (accepted : ∀ a, action = some a → capabilities.Accept a) (stopDriving : Bool) :
    HoldsExecutable capabilities (c.processInstantAction action stopDriving) := by
  unfold Config.processInstantAction
  cases action with
  | none => exact (holds.observe (by exact trivial)).throwTypeError
  | some action =>
      have accepted := accepted action rfl
      have observed : HoldsExecutable capabilities
          (c.observe (.instantActionProcessed (some action))) := holds.observe trivial
      have counted : HoldsExecutable capabilities
          ((c.observe (.instantActionProcessed (some action))).resetEndedPublishCount action) :=
        { observed with }
      simp only
      split
      · exact observed.throwTypeError
      split
      · exact counted.updateActionStatus (by exact trivial) PartialState.isVehicleState_empty
      · split
        · exact counted.cancelOrder (by exact trivial)
        · next executes =>
          exact counted.executeInstantAction (by exact trivial) (accepted executes)

theorem addError (holds : HoldsExecutable capabilities c) (error : Error) :
    HoldsExecutable capabilities (c.addError error) := by
  unfold Config.addError
  refine updateState ?_ _ true
  exact { holds with }

theorem addInstantActionError (holds : HoldsExecutable capabilities c) (error : Error) :
    HoldsExecutable capabilities (c.addInstantActionError error) := by
  unfold Config.addInstantActionError
  refine addError ?_ error
  exact { holds with }

/-- An instant action that is not to be rejected can be executed, or is a cancelation. -/
private theorem accept_of_checkInstantActionExecutable {adapter : AdapterAnswers}
    (respects : adapter.Respects capabilities) {agv : AgvController} {action : Action}
    (passed : Config.checkInstantActionExecutable agv adapter action = none) :
    capabilities.Accept action := by
  intro executes
  simp only [Config.checkInstantActionExecutable, executes, if_false] at passed
  refine respects (Config.instantActionContext agv action none) ?_
  simpa using passed

theorem acceptInstantActions (holds : HoldsExecutable capabilities c) {adapter : AdapterAnswers}
    (respects : adapter.Respects capabilities) (actions : List Action) :
    HoldsExecutable capabilities (c.acceptInstantActions adapter actions) := by
  induction actions generalizing c with
  | nil => exact holds
  | cons action actions ih =>
      unfold Config.acceptInstantActions
      split
      · exact ih ((holds.addInstantActionError _).observe (by exact trivial))
      · next passed =>
        have accepted := accept_of_checkInstantActionExecutable respects passed
        refine ih (observe ?_ (by exact accepted))
        refine { holds with instantActions := fun other member => ?_ }
        rcases List.mem_append.mp member with member | member
        · exact holds.instantActions other member
        · exact List.mem_singleton.mp member ▸ accepted

theorem processInstantActions (holds : HoldsExecutable capabilities c) {adapter : AdapterAnswers}
    (respects : adapter.Respects capabilities) (message : InstantActions) :
    HoldsExecutable capabilities (c.processInstantActions message adapter) := by
  have accepted := holds.acceptInstantActions respects message.actions
  unfold Config.processInstantActions
  simp only
  split
  · exact holds.throwTypeError
  split
  · exact accepted
  · exact accepted.call (by simp [Frame.ExecutableBy])

/-! ## Orders -/

theorem updateEdgeTraversed (holds : HoldsExecutable capabilities c)
    {context : TraverseEdgeContext} (executable : context.ExecutableBy capabilities) :
    HoldsExecutable capabilities (c.updateEdgeTraversed context) := by
  unfold Config.updateEdgeTraversed
  split
  · exact holds
  · split
    · exact holds.throwTypeError
    · next endNode found =>
      refine holds.processNode (executable.2 endNode found) ?_
      rintro _ ⟨⟩
      exact executable.1

theorem replaceNode (holds : HoldsExecutable capabilities c) {updated : Node}
    (executable : updated.ExecutableBy capabilities) :
    HoldsExecutable capabilities (c.replaceNode updated) := by
  have replaced : ∀ {node : Node}, node.ExecutableBy capabilities →
      (AgvController.replaceNode updated node).ExecutableBy capabilities := by
    intro node before
    unfold AgvController.replaceNode
    split
    · exact executable
    · exact before
  refine { holds with executing := ?_, traversing := ?_, pausedNode := ?_ }
  · intro context member
    obtain ⟨original, included, rfl⟩ := List.mem_map.mp member
    have before := holds.executing original included
    unfold ActionContext.replaceNode
    unfold ActionContext.ExecutableBy at before
    split
    · next scope =>
      rw [scope] at before
      exact replaced before
    · exact holds.executing original included
    · exact holds.executing original included
  · intro context member
    obtain ⟨original, included, rfl⟩ := List.mem_map.mp member
    obtain ⟨edge, endNode⟩ := holds.traversing original included
    refine ⟨edge, fun node found => ?_⟩
    obtain ⟨before, same, rfl⟩ := Option.map_eq_some_iff.mp found
    exact replaced (endNode before same)
  · intro node paused
    obtain ⟨original, before, rfl⟩ := Option.map_eq_some_iff.mp paused
    exact replaced (holds.pausedNode original before)

private theorem stitchedBaseEnd_executableBy {baseEnd : Node} {order : Order}
    (executable : baseEnd.ExecutableBy capabilities) (added : order.ExecutableBy capabilities) :
    (stitchedBaseEnd baseEnd order).ExecutableBy capabilities := by
  intro action member
  rcases List.mem_append.mp member with member | member
  · exact executable action member
  · cases first : order.nodes.head? with
    | none => simp [first] at member
    | some firstNode =>
        simp only [first, Option.map_some, Option.getD_some] at member
        exact added.1 firstNode (List.mem_of_head? first) action member

/-- Stitching mixes the actions of two orders. -/
private theorem stitchedOrder_executableBy {currentOrder order : Order} {baseEnd : Node}
    (current : currentOrder.ExecutableBy capabilities) (added : order.ExecutableBy capabilities)
    (stitched : (stitchedBaseEnd baseEnd order).ExecutableBy capabilities) :
    (stitchedOrder currentOrder baseEnd order).ExecutableBy capabilities := by
  constructor
  · intro node member
    rcases List.mem_append.mp member with member | member
    · obtain ⟨original, included, rfl⟩ := List.mem_map.mp member
      unfold AgvController.replaceNode
      split
      · exact stitched
      · exact current.1 original (beforeHorizon_subset _ _ included)
    · exact added.1 node (List.mem_of_mem_tail member)
  · intro edge member
    rcases List.mem_append.mp member with member | member
    · exact current.2 edge (beforeHorizon_subset _ _ member)
    · exact added.2 edge member

theorem beginOrder (holds : HoldsExecutable capabilities c) (trajectory : TrajectoryHandler)
    {order : Order} (mode : AcceptMode) (added : order.ExecutableBy capabilities) :
    HoldsExecutable capabilities (c.beginOrder trajectory order mode) := by
  have observed : HoldsExecutable capabilities (c.observe (.orderAccepted mode order)) :=
    holds.observe trivial
  refine updateState ?_ _ true
  refine { observed with currentOrder := ?_ }
  rintro _ ⟨⟩
  exact added

theorem stitchOrder (holds : HoldsExecutable capabilities c) (trajectory : TrajectoryHandler)
    {currentOrder order : Order} {baseEnd : Node}
    (current : c.agv.currentOrder = some currentOrder)
    (stitched : (stitchedBaseEnd baseEnd order).ExecutableBy capabilities)
    (added : order.ExecutableBy capabilities) :
    HoldsExecutable capabilities (c.stitchOrder trajectory currentOrder baseEnd order) := by
  have observed : HoldsExecutable capabilities (c.observe (.orderAccepted .stitch order)) :=
    holds.observe trivial
  have replaced := observed.replaceNode stitched
  refine updateState ?_ _ true
  refine { replaced with currentOrder := ?_ }
  rintro _ ⟨⟩
  exact stitchedOrder_executableBy (holds.currentOrder currentOrder current) added stitched

theorem acceptOrder (holds : HoldsExecutable capabilities c) (trajectory : TrajectoryHandler)
    {order : Order} (mode : AcceptMode) (added : order.ExecutableBy capabilities) :
    HoldsExecutable capabilities (c.acceptOrder trajectory order mode) := by
  have begun := holds.beginOrder trajectory mode added
  unfold Config.acceptOrder
  split
  · split
    · exact begun.throwTypeError
    · next first found =>
      exact begun.processNode (added.1 first (List.mem_of_head? found)) (by simp)
  · split
    · exact begun.throwTypeError
    · next first found =>
      exact begun.processNode (added.1 first (List.mem_of_head? found)) (by simp)
  · split
    · exact (holds.observe (by exact trivial)).throwTypeError
    · next currentOrder current =>
      split
      · exact (holds.observe (by exact trivial)).throwTypeError
      · next baseEnd found =>
        have executable : baseEnd.ExecutableBy capabilities :=
          (holds.currentOrder currentOrder current).1 baseEnd (currentBaseEnd_spec found).1
        have stitched := stitchedBaseEnd_executableBy executable added
        have accepted := holds.stitchOrder trajectory current stitched added
        simp only
        split
        · exact accepted.processEdge _
        · exact accepted

/-- An accepted order has passed the check of its actions. -/
private theorem executableBy_of_accepted {adapter : AdapterAnswers} {order : Order}
    {mode : AcceptMode} (respects : adapter.Respects capabilities) {agv : AgvController}
    (accepted : agv.decideOrder adapter order = .accept mode) :
    order.ExecutableBy capabilities := by
  have passed : checkOrderActionsExecutable adapter order = none := by
    unfold decideOrder at accepted
    split at accepted
    · cases accepted
    · split at accepted
      · cases accepted
      · split at accepted
        · cases accepted
        · next passed =>
          simp only [Option.orElse_eq_orElse, Option.orElse_eq_or, Option.or_eq_none_iff] at passed
          exact passed.2.1
  have found : ∀ context ∈ orderActionContexts order, capabilities.Cover context := by
    intro context member
    refine respects context ?_
    have unreported := List.findSome?_eq_none_iff.mp passed context member
    simpa using unreported
  constructor
  · intro node member action included
    refine found { action := action, scope := .node node, activeOrderId := some order.orderId } ?_
    exact List.mem_append_left _
      (List.mem_flatMap.mpr ⟨node, member, List.mem_map_of_mem included⟩)
  · intro edge member action included
    refine found { action := action, scope := .edge edge, activeOrderId := some order.orderId } ?_
    exact List.mem_append_right _
      (List.mem_flatMap.mpr ⟨edge, member, List.mem_map_of_mem included⟩)

theorem processOrder (holds : HoldsExecutable capabilities c) {adapter : AdapterAnswers}
    (respects : adapter.Respects capabilities) (order : Order) :
    HoldsExecutable capabilities (c.processOrder order adapter) := by
  have received : HoldsExecutable capabilities { c with received := c.received + 1 } :=
    { holds with }
  unfold Config.processOrder
  simp only
  split
  · exact (received.addError _).observe trivial
  · exact (received.updateState _ true).observe trivial
  · next mode accepted =>
    exact received.acceptOrder _ mode (executableBy_of_accepted respects accepted)

/-! ## Steps -/

theorem resume (holds : HoldsExecutable capabilities c) {frame : Frame}
    (executable : frame.ExecutableBy capabilities) :
    HoldsExecutable capabilities (c.resume frame) := by
  cases frame with
  | adapter => exact holds
  | finishEdgeActions edge actions =>
      cases actions with
      | nil => exact holds
      | cons action actions => exact holds.finishEdgeAction executable action actions
  | nodeTraversed node traversedEdge => exact holds.nodeTraversed executable traversedEdge
  | processNodeAction => exact holds.executeOrderAction executable.1 executable.2
  | processEdgeAction => exact holds.executeOrderAction executable.1 executable.2
  | cancelOrderActions states hasActionsToBeCanceled =>
      cases states with
      | nil =>
          cases hasActionsToBeCanceled with
          | true => exact holds
          | false => exact holds.onOrderActionsCanceled
      | cons state states => exact holds.cancelOrderAction state states hasActionsToBeCanceled
  | processInstantActionChunk afterAction skipInitialHard =>
      exact holds.processInstantActionChunk afterAction skipInitialHard
  | processInstantActions i stopIndex stopDriving =>
      simp only [Config.resume]
      split
      · exact (holds.call (by simp [Frame.ExecutableBy])).processInstantAction
          (fun action found => holds.instantActions action (List.mem_of_getElem? found)) _
      · exact holds
  | processInstantAction action stopDriving =>
      refine holds.processInstantAction (fun a found => ?_) _
      subst found
      exact executable
  | resumePausedNode =>
      simp only [Config.resume, Config.resumePausedNode]
      split
      · exact holds
      · next pausedNode paused =>
        have resumed : HoldsExecutable capabilities
            { c with agv := { c.agv with currentPausedNode := none } } :=
          { holds with pausedNode := by simp }
        split
        · exact resumed
        · exact resumed.processNode (holds.pausedNode pausedNode paused) (by simp)

theorem proceed (holds : HoldsExecutable capabilities c) :
    HoldsExecutable capabilities c.proceed := by
  unfold Config.proceed
  split
  · exact holds
  · next frame stack pending =>
    have popped : HoldsExecutable capabilities { c with stack := stack } :=
      { holds with
        stack := fun other member => holds.stack other (pending ▸ List.mem_cons_of_mem _ member) }
    exact popped.resume (holds.stack frame (by simp [pending]))

theorem updatePartialState (holds : HoldsExecutable capabilities c) (newState : PartialState)
    (reportImmediately : Bool) :
    HoldsExecutable capabilities (c.updatePartialState newState reportImmediately) := by
  unfold Config.updatePartialState
  simp only
  refine updateState ?_ _ _
  rw [AgvController.cloneState_snd]
  exact { holds with }

theorem updateErrors (holds : HoldsExecutable capabilities c) (error : Error)
    (mode : UpdateMode) (reportImmediately : Bool) :
    HoldsExecutable capabilities (c.updateErrors error mode reportImmediately) := by
  unfold Config.updateErrors
  split
  · exact holds.throwTypeError
  · exact holds
  · exact holds.updatePartialState _ _

/-- What follows a cancelation is no action. -/
theorem stopped (holds : HoldsExecutable capabilities c) (context : StopTraverseContext)
    (instant : ∀ cancelOrderContext, c.agv.cancelOrderContext = some cancelOrderContext →
      cancelOrderContext.scope = .instant) :
    HoldsExecutable capabilities (c.stopped context) := by
  have observed : HoldsExecutable capabilities
      (c.observe (.stopped context c.agv.cancelOrderContext)) := holds.observe trivial
  have emptied : HoldsExecutable capabilities
      (({ c.observe (.stopped context c.agv.cancelOrderContext) with
          agv := { c.agv with cancelOrderContext := none } }).updateState
        { nodeStates := some [], edgeStates := some [] } false) := by
    refine updateState ?_ _ false
    exact { observed with }
  unfold Config.stopped
  simp only
  split
  · exact emptied.throwTypeError
  · next cancelOrderContext pending =>
    refine emptied.updateActionStatus ?_ PartialState.isVehicleState_empty
    simp [ActionContext.ExecutableBy, instant cancelOrderContext pending]

theorem adapterReports (holds : HoldsExecutable capabilities c) {context : ActionContext}
    (member : context ∈ c.executing) {change : ActionStatusChangeInfo}
    (vehicle : change.linkedState.isVehicleState) :
    HoldsExecutable capabilities (c.adapterReports context change) := by
  have reported : HoldsExecutable capabilities
      { c with
        executing :=
          if change.actionStatus.isEnded then c.executing.erase context else c.executing } := by
    refine { holds with executing := fun other member => holds.executing other ?_ }
    split at member
    · exact List.mem_of_mem_erase member
    · exact member
  have after := holds.executing context member
  unfold Config.adapterReports Config.updateActionStatusCallback
  simp only
  split
  · exact (reported.call (by simp [Frame.ExecutableBy])).updateActionStatus after vehicle
  · exact reported.updateActionStatus after vehicle

end HoldsExecutable

/-- Events of an adapter that keeps its contract and respects the capabilities keep what is
held executable. -/
theorem HoldsExecutable.perform {c : Config} (holds : HoldsExecutable capabilities c)
    (valid : c.Provenant) {event : Event} (contract : AdapterContract c event)
    (respects : event.Respects capabilities) :
    HoldsExecutable capabilities (c.perform event) := by
  cases event with
  | order order adapter => exact holds.processOrder respects order
  | instantActions message adapter => exact holds.processInstantActions respects message
  | proceed => exact holds.proceed
  | invalidOrder payload message =>
      simp only [Config.perform, Config.processInvalidOrder]
      split
      · exact holds.throwTypeError
      · exact (holds.addError _).observe trivial
  | invalidInstantActions payload message =>
      simp only [Config.perform, Config.processInvalidInstantActions]
      split
      · exact holds.throwTypeError
      · exact holds.addInstantActionError _
  | updateActionStatus context change => exact holds.adapterReports contract.1 contract.2.2
  | edgeTraversed context =>
      have erased : HoldsExecutable capabilities
          ({ c with traversing := c.traversing.erase context }.observe
            (.edgeTraversed context)) := by
        refine HoldsExecutable.observe ?_ trivial
        exact
          { holds with
            traversing := fun other member =>
              holds.traversing other (List.mem_of_mem_erase member) }
      exact erased.updateEdgeTraversed (holds.traversing context contract)
  | stopped context =>
      have called : HoldsExecutable capabilities
          { c with stopping := c.stopping.erase context } := { holds with }
      exact called.stopped context fun cancelOrderContext pending =>
        (valid.cancelOrderContext cancelOrderContext pending).1
  | drivingToNextNode nextNode => exact holds.updateState _ true
  | updatePartialState newState reportImmediately =>
      exact holds.updatePartialState newState reportImmediately
  | updateErrors error mode reportImmediately =>
      exact holds.updateErrors error mode reportImmediately
  | publishTimer => exact holds.publishCurrentState
  | published succeeded =>
      cases succeeded with
      | false => exact { holds with }
      | true => exact { holds with }
  | connection online =>
      simp only [Config.perform]
      split
      · exact HoldsExecutable.publishCurrentState { holds with }
      · exact { holds with }

theorem HoldsExecutable.initial (limit : Nat) :
    HoldsExecutable capabilities (Config.initial limit) := by
  constructor <;> simp [Config.initial, AgvController.initial]

end Vda5050
