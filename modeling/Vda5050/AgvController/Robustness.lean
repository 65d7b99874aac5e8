import Vda5050.AgvController.Payloads
import Vda5050.AgvController.ErrorObjects
import Vda5050.AgvController.Contract

/-!
# Robustness against arbitrary payloads

Which steps of the AGV controller end with a thrown error or leave an error
in the state that is refused by outbound validation.
-/

set_option autoImplicit false

namespace Vda5050

open AgvController

/-! ## Calls on the current order -/

namespace Config

section Running

variable {c : Config} (order : c.agv.currentOrder.isSome)
include order

private theorem traverseEdge_crashed (edge : Edge) : (c.traverseEdge edge).crashed = c.crashed := by
  obtain ⟨current, found⟩ := Option.isSome_iff_exists.mp order
  simp [traverseEdge, found, call, observe]

private theorem processEdgeActions_crashed (edge : Edge) (afterAction : Option Action) :
    (c.processEdgeActions edge afterAction).crashed = c.crashed := by
  unfold processEdgeActions
  split
  · exact traverseEdge_crashed order edge
  · rfl
  · rfl

private theorem processEdge_crashed (node : Node) : (c.processEdge node).crashed = c.crashed := by
  obtain ⟨current, found⟩ := Option.isSome_iff_exists.mp order
  simp only [processEdge, found]
  split
  · rfl
  · split
    · exact processEdgeActions_crashed order _ _
    · rfl

private theorem processNodeActions_crashed (node : Node) (afterAction : Option Action) :
    (c.processNodeActions node afterAction).crashed = c.crashed := by
  unfold processNodeActions
  split
  · exact processEdge_crashed order node
  · rfl
  · rfl

private theorem nodeTraversed_crashed (node : Node) (traversedEdge : Option Edge) :
    (c.nodeTraversed node traversedEdge).crashed = c.crashed := by
  unfold nodeTraversed
  refine (processNodeActions_crashed ?_ node none).trans ?_
  · simpa [observe] using order
  · simp [observe]

private theorem processNode_crashed (node : Node) (traversedEdge : Option Edge) :
    (c.processNode node traversedEdge).crashed = c.crashed := by
  unfold processNode
  split
  · rfl
  · split
    · rfl
    · split
      · exact nodeTraversed_crashed order node none
      · rfl

private theorem executeOrderAction_crashed (action : Action) (scope : ActionScope)
    (stopDriving : Bool) :
    (c.executeOrderAction action scope stopDriving).crashed = c.crashed := by
  obtain ⟨current, found⟩ := Option.isSome_iff_exists.mp order
  simp [executeOrderAction, found, call, observe]

private theorem finishEdgeAction_crashed (edge : Edge) (action : Action) (actions : List Action) :
    (c.finishEdgeAction edge action actions).crashed = c.crashed := by
  obtain ⟨current, found⟩ := Option.isSome_iff_exists.mp order
  simp only [finishEdgeAction, found]
  split <;> rfl

private theorem nodeActionEnded_crashed (node : Node) (action : Action) :
    (c.nodeActionEnded node action).crashed = c.crashed := by
  unfold nodeActionEnded
  split
  · exact processNodeActions_crashed order node _
  · rfl
  · exact processEdge_crashed order node
  · rfl

private theorem edgeActionEnded_crashed (edge : Edge) (action : Action) :
    (c.edgeActionEnded edge action).crashed = c.crashed := by
  unfold edgeActionEnded
  split
  · exact processEdgeActions_crashed order edge _
  · rfl
  · exact traverseEdge_crashed order edge
  · rfl

/-- Proceeding with a frame of an order. -/
private theorem resume_order_crashed {frame : Frame} (isOrderFrame : frame.isOrderFrame) :
    (c.resume frame).crashed = c.crashed := by
  cases frame with
  | finishEdgeActions edge actions =>
      cases actions with
      | nil => rfl
      | cons action actions => exact finishEdgeAction_crashed order edge action actions
  | nodeTraversed node traversedEdge => exact nodeTraversed_crashed order node traversedEdge
  | processNodeAction node action stopDriving =>
      exact executeOrderAction_crashed order action _ stopDriving
  | processEdgeAction edge action stopDriving =>
      exact executeOrderAction_crashed order action _ stopDriving
  | _ => simp [Frame.isOrderFrame] at isOrderFrame

end Running

end Config

/-! ## Pending calls that find what they need -/

/-- A pending call on an order is made with a current order, and no action is
dispatched that is not there. -/
def Frame.Sound (currentOrder : Option Order) : Frame → Prop
  | .processInstantAction action _ => action.isSome
  | frame => frame.isOrderFrame → currentOrder.isSome

/-- Nothing that concerns an order is pending as long as there is none. -/
structure Config.Sound (c : Config) : Prop where
  running : c.crashed = false
  stack : ∀ frame ∈ c.stack, frame.Sound c.agv.currentOrder
  executing : ∀ context ∈ c.executing, context.scope ≠ .instant → c.agv.currentOrder.isSome
  traversing : ∀ context ∈ c.traversing, c.agv.currentOrder.isSome
  pausedNode : c.agv.currentPausedNode.isSome → c.agv.currentOrder.isSome
  canceling : ∀ context, c.agv.cancelOrderContext = some context → context.scope = .instant

theorem Config.Sound.initial (limit : Nat) : (Config.initial limit).Sound where
  running := rfl
  stack := by simp [Config.initial]
  executing := by simp [Config.initial]
  traversing := by simp [Config.initial]
  pausedNode := by simp [Config.initial, AgvController.initial]
  canceling := by simp [Config.initial, AgvController.initial]

namespace Config.Sound

variable {c next : Config}

theorem of_same (sound : c.Sound) (running : next.crashed = c.crashed)
    (order : next.agv.currentOrder = c.agv.currentOrder)
    (pausedNode : next.agv.currentPausedNode = c.agv.currentPausedNode)
    (canceling : next.agv.cancelOrderContext = c.agv.cancelOrderContext)
    (stack : next.stack = c.stack) (executing : next.executing ⊆ c.executing)
    (traversing : next.traversing ⊆ c.traversing) : next.Sound where
  running := running.trans sound.running
  stack := by
    rw [stack, order]
    exact sound.stack
  executing context member scope := by
    rw [order]
    exact sound.executing context (executing member) scope
  traversing context member := by
    rw [order]
    exact sound.traversing context (traversing member)
  pausedNode := by
    rw [pausedNode, order]
    exact sound.pausedNode
  canceling := by
    rw [canceling]
    exact sound.canceling

theorem call (sound : c.Sound) {frames : List Frame}
    (sounds : ∀ frame ∈ frames, frame.Sound c.agv.currentOrder) : (c.call frames).Sound where
  running := sound.running
  stack frame member := by
    cases List.mem_append.mp member with
    | inl new => exact sounds frame new
    | inr old => exact sound.stack frame old
  executing := sound.executing
  traversing := sound.traversing
  pausedNode := sound.pausedNode
  canceling := sound.canceling

private theorem callOne (sound : c.Sound) {frame : Frame} (fits : frame.Sound c.agv.currentOrder) :
    (c.call [frame]).Sound := by
  apply sound.call
  intro other member
  rw [List.mem_singleton.mp member]
  exact fits

/-- With a current order only dispatches of actions have to be looked at. -/
private theorem of_order (running : next.crashed = false) (order : next.agv.currentOrder.isSome)
    (canceling : ∀ context, next.agv.cancelOrderContext = some context → context.scope = .instant)
    (stack : ∀ stopDriving, .processInstantAction none stopDriving ∉ next.stack) :
    next.Sound where
  running := running
  stack frame member := by
    cases frame with
    | processInstantAction action stopDriving =>
        cases action with
        | none => exact absurd member (stack stopDriving)
        | some action => rfl
    | _ => exact fun _ => order
  executing _ _ _ := order
  traversing _ _ := order
  pausedNode _ := order
  canceling := canceling

theorem dispatches (sound : c.Sound) (stopDriving : Bool) :
    .processInstantAction none stopDriving ∉ c.stack := fun member => by
  cases sound.stack _ member

theorem move (sound : c.Sound) (order : c.agv.currentOrder.isSome) (move : OrderMove c next)
    (running : next.crashed = c.crashed) : next.Sound := by
  have alive : next.crashed = false := running.trans sound.running
  obtain ⟨_, _, _, _, _, agv⟩ := move.agv
  apply of_order alive
  · rw [agv]
    exact order
  · rw [agv]
    exact sound.canceling
  · intro stopDriving member
    rcases move.stack with ⟨-, frames, stack, kinds⟩ | ⟨crashed, -⟩
    · rw [stack] at member
      cases List.mem_append.mp member with
      | inl new =>
          cases kinds _ new with
          | inl adapter => cases adapter
          | inr isOrderFrame => cases isOrderFrame
      | inr old => exact sound.dispatches stopDriving old
    · rw [alive] at crashed
      cases crashed

theorem processNode (sound : c.Sound) (order : c.agv.currentOrder.isSome) (node : Node)
    (traversedEdge : Option Edge) : (c.processNode node traversedEdge).Sound :=
  sound.move order (processNode_move c node traversedEdge) (processNode_crashed order _ _)

/-! ### Reports on actions -/

private theorem reportActionStatus_currentOrder (context : ActionContext)
    (change : ActionStatusChangeInfo) :
    (c.reportActionStatus context change).agv.currentOrder = c.agv.currentOrder := by
  simp only [Config.reportActionStatus, observe, updateState_agv]
  rw [cloneState_snd]

theorem reportActionStatus (sound : c.Sound) (context : ActionContext)
    (change : ActionStatusChangeInfo) : (c.reportActionStatus context change).Sound := by
  refine sound.of_same (by simp) (reportActionStatus_currentOrder context change) ?_ ?_ (by simp)
    (by simp) (by simp)
  · simp only [Config.reportActionStatus, observe, updateState_agv]
    rw [cloneState_snd]
  · simp only [Config.reportActionStatus, observe, updateState_agv]
    rw [cloneState_snd]

theorem instantActionEnded (sound : c.Sound) (action : Action) :
    (c.instantActionEnded action).Sound := by
  obtain ⟨frames, same, kinds⟩ := instantActionEnded_eq c action
  rw [same]
  have dequeued : (c.dequeue (spliceAction c.agv.currentInstantActions action)).Sound :=
    sound.of_same rfl rfl rfl rfl rfl (List.Subset.refl _) (List.Subset.refl _)
  apply dequeued.call
  intro frame member
  rcases kinds frame member with rfl | ⟨next, rfl⟩
  · exact fun isOrderFrame => by cases isOrderFrame
  · rfl

theorem onOrderActionsCanceled (sound : c.Sound) : c.onOrderActionsCanceled.Sound := by
  have stopping : ({ c with stopping := ⟨c.agv.cancelOrderContext⟩ :: c.stopping }.observe
      (.stopTraverse ⟨c.agv.cancelOrderContext⟩)).Sound :=
    sound.of_same rfl rfl rfl rfl rfl (List.Subset.refl _) (List.Subset.refl _)
  exact stopping.callOne fun isOrderFrame => by cases isOrderFrame

theorem orderActionCanceled (sound : c.Sound) (order : c.agv.currentOrder.isSome) :
    c.orderActionCanceled.Sound := by
  obtain ⟨current, found⟩ := Option.isSome_iff_exists.mp order
  simp only [Config.orderActionCanceled, found]
  split
  · exact sound.onOrderActionsCanceled
  · exact sound

theorem updateActionStatus (sound : c.Sound) {context : ActionContext}
    (order : context.scope ≠ .instant → c.agv.currentOrder.isSome)
    (change : ActionStatusChangeInfo) : (c.updateActionStatus context change).Sound := by
  have reported := sound.reportActionStatus context change
  have same := reportActionStatus_currentOrder (c := c) context change
  unfold Config.updateActionStatus
  dsimp only
  split
  · exact reported
  · cases scope : context.scope with
    | instant => exact reported.instantActionEnded _
    | node node =>
        have current : (c.reportActionStatus context change).agv.currentOrder.isSome := by
          rw [same]
          exact order (by simp [scope])
        dsimp only
        split
        · exact reported.orderActionCanceled current
        · exact reported.move current (nodeActionEnded_move _ _ _)
            (nodeActionEnded_crashed current _ _)
    | edge edge =>
        have current : (c.reportActionStatus context change).agv.currentOrder.isSome := by
          rw [same]
          exact order (by simp [scope])
        dsimp only
        split
        · exact reported.orderActionCanceled current
        · exact reported.move current (edgeActionEnded_move _ _ _)
            (edgeActionEnded_crashed current _ _)

theorem adapterReports (sound : c.Sound) {context : ActionContext}
    (executing : context ∈ c.executing) (change : ActionStatusChangeInfo) :
    (c.adapterReports context change).Sound := by
  have order := sound.executing context executing
  have left : ({ c with
      executing := if change.actionStatus.isEnded then c.executing.erase context
        else c.executing } : Config).Sound := by
    refine sound.of_same rfl rfl rfl rfl rfl ?_ (List.Subset.refl _)
    dsimp only
    split
    · exact List.erase_subset
    · exact List.Subset.refl _
  unfold Config.adapterReports updateActionStatusCallback
  dsimp only
  split
  · have fits : Frame.resumePausedNode.Sound c.agv.currentOrder :=
      fun isOrderFrame => by cases isOrderFrame
    exact (left.callOne fits).updateActionStatus order change
  · exact left.updateActionStatus order change

/-! ### Instant actions -/

theorem cancelOrder (sound : c.Sound) {context : ActionContext}
    (instant : context.scope = .instant) : (c.cancelOrder context).Sound := by
  have started : (c.cancelationStarted context).Sound := by
    apply reportActionStatus
    refine { sound with canceling := fun other entered => ?_ }
    exact Option.some.inj entered ▸ instant
  rw [cancelOrder_eq]
  exact started.callOne fun isOrderFrame => by cases isOrderFrame

theorem executeInstantAction (sound : c.Sound) {context : ActionContext}
    (instant : context.scope = .instant) : (c.executeInstantAction context).Sound where
  running := sound.running
  stack frame member := by
    cases List.mem_cons.mp member with
    | inl adapter =>
        rw [adapter]
        exact fun isOrderFrame => by cases isOrderFrame
    | inr old => exact sound.stack frame old
  executing other member scope := by
    cases List.mem_cons.mp member with
    | inl same =>
        rw [same] at scope
        exact absurd instant scope
    | inr old => exact sound.executing other old scope
  traversing := sound.traversing
  pausedNode := sound.pausedNode
  canceling := sound.canceling

theorem processInstantAction (sound : c.Sound) (known : c.agv.lacksCurrentOrder = false)
    (action : Action) (stopDriving : Bool) :
    (c.processInstantAction (some action) stopDriving).Sound := by
  have counted :
      ((c.observe (.instantActionProcessed (some action))).resetEndedPublishCount action).Sound :=
    sound.of_same rfl rfl rfl rfl rfl (List.Subset.refl _) (List.Subset.refl _)
  unfold Config.processInstantAction
  dsimp only
  rw [if_neg (by simpa [observe] using known)]
  split
  · exact counted.updateActionStatus (fun scope => absurd rfl scope) _
  · split
    · exact counted.cancelOrder rfl
    · exact counted.executeInstantAction rfl

private theorem isSome_getElem?_findIndexFrom {test : Action → Bool} {start : Nat}
    {actions : List Action} (found : (findIndexFrom test start actions).isSome) (fallback : Nat) :
    actions[(findIndexFrom test start actions).getD fallback]?.isSome := by
  obtain ⟨index, same⟩ := Option.isSome_iff_exists.mp found
  obtain ⟨offset, first, rfl⟩ := Option.map_eq_some_iff.mp same
  have inside := (List.findIdx?_eq_some_iff_getElem.mp first).1
  rw [List.length_drop] at inside
  rw [same, Option.getD_some, List.getElem?_eq_getElem (by omega)]
  rfl

theorem processInstantActionChunk (sound : c.Sound) (afterAction : Option Action)
    (skipInitialHard : Bool) :
    (c.processInstantActionChunk afterAction skipInitialHard).Sound := by
  unfold Config.processInstantActionChunk
  dsimp only
  split
  · split
    · next triggers =>
      rw [Bool.and_eq_true] at triggers
      exact sound.callOne (isSome_getElem?_findIndexFrom triggers.1 _)
    · exact sound
  · exact sound.callOne fun isOrderFrame => by cases isOrderFrame

/-! ### Messages -/

theorem acceptInstantActions (sound : c.Sound) (adapter : AdapterAnswers) (actions : List Action) :
    (c.acceptInstantActions adapter actions).Sound := by
  obtain ⟨accepted, agv, published, inFlight, observations, same, ⟨errors, counts, ref, rfl⟩, -⟩ :=
    acceptInstantActions_eq c adapter actions
  rw [same]
  exact sound.of_same rfl rfl rfl rfl rfl (List.Subset.refl _) (List.Subset.refl _)

theorem processInstantActions (sound : c.Sound) {message : InstantActions}
    (known : message.actions = [] ∨ c.agv.lacksCurrentOrder = false) (adapter : AdapterAnswers) :
    (c.processInstantActions message adapter).Sound := by
  have accepted := sound.acceptInstantActions adapter message.actions
  unfold Config.processInstantActions
  dsimp only
  rw [if_neg (by rcases known with none | known <;> simp [*])]
  split
  · exact accepted
  · exact accepted.callOne fun isOrderFrame => by cases isOrderFrame

theorem updateState (sound : c.Sound) (newPartialState : PartialState)
    (publishImmediately : Bool) : (c.updateState newPartialState publishImmediately).Sound :=
  sound.of_same (by simp) (by simp) (by simp) (by simp) (by simp) (by simp) (by simp)

theorem addError (sound : c.Sound) (error : Error) : (c.addError error).Sound := by
  apply updateState
  exact sound.of_same rfl rfl rfl rfl rfl (List.Subset.refl _) (List.Subset.refl _)

theorem rejectOrder (sound : c.Sound) (error : Error) : (c.rejectOrder error).Sound :=
  (sound.addError error).of_same rfl rfl rfl rfl rfl (List.Subset.refl _) (List.Subset.refl _)

theorem addInstantActionError (sound : c.Sound) (error : Error) :
    (c.addInstantActionError error).Sound := by
  apply addError
  exact sound.of_same rfl rfl rfl rfl rfl (List.Subset.refl _) (List.Subset.refl _)

/-- An accepted order is the current one, and its first calls are made on it. -/
theorem acceptOrder (sound : c.Sound) {adapter : AdapterAnswers} {order : Order} {mode : AcceptMode}
    (accepted : c.agv.Accepts order mode) :
    (c.acceptOrder adapter.trajectory order mode).Sound := by
  have begun : (c.beginOrder adapter.trajectory order mode).Sound :=
    of_order (by simpa [beginOrder, observe] using sound.running) (by simp [beginOrder, observe])
      (by simpa [beginOrder, observe] using sound.canceling)
      (by simpa [beginOrder, observe] using sound.dispatches)
  have current : (c.beginOrder adapter.trajectory order mode).agv.currentOrder.isSome := by
    simp [beginOrder, observe]
  obtain ⟨firstNode, nodes, first, -⟩ := head_released_of_validateOrderConstraints accepted.valid
  have processed := begun.processNode current firstNode none
  cases mode with
  | new => simpa [Config.acceptOrder, first] using processed
  | update => simpa [Config.acceptOrder, first] using processed
  | stitch =>
      obtain ⟨currentOrder, baseEnd, known, found⟩ :=
        isOrderBaseStitching_spec (accepted.stitches rfl).2
      have stitched : (c.stitchOrder adapter.trajectory currentOrder baseEnd order).Sound :=
        of_order (by simpa [stitchOrder, observe, replaceNode] using sound.running)
          (by simp [stitchOrder, observe, replaceNode])
          (by simpa [stitchOrder, observe, replaceNode] using sound.canceling)
          (by simpa [stitchOrder, observe, replaceNode] using sound.dispatches)
      have current :
          (c.stitchOrder adapter.trajectory currentOrder baseEnd order).agv.currentOrder.isSome := by
        simp [stitchOrder, observe, replaceNode]
      simp only [Config.acceptOrder, known, found]
      split
      · exact stitched.move current (processEdge_move _ _) (processEdge_crashed current _)
      · exact stitched

theorem processOrder (sound : c.Sound) (order : Order) (adapter : AdapterAnswers) :
    (c.processOrder order adapter).Sound := by
  have received : ({ c with received := c.received + 1 } : Config).Sound :=
    sound.of_same rfl rfl rfl rfl rfl (List.Subset.refl _) (List.Subset.refl _)
  unfold Config.processOrder
  dsimp only
  split
  · exact received.rejectOrder _
  · exact (received.updateState {} true).of_same rfl rfl rfl rfl rfl (List.Subset.refl _)
      (List.Subset.refl _)
  · next mode decided => exact received.acceptOrder (decideOrder_accept decided)

theorem updatePartialState (sound : c.Sound) (newState : PartialState) (reportImmediately : Bool) :
    (c.updatePartialState newState reportImmediately).Sound := by
  have agv := cloneState_snd c.agv newState
  have order : (c.agv.cloneState newState).2.currentOrder = c.agv.currentOrder := by rw [agv]
  have pausedNode :
      (c.agv.cloneState newState).2.currentPausedNode = c.agv.currentPausedNode := by rw [agv]
  have canceling :
      (c.agv.cloneState newState).2.cancelOrderContext = c.agv.cancelOrderContext := by rw [agv]
  unfold Config.updatePartialState
  apply updateState
  exact sound.of_same rfl order pausedNode canceling rfl (List.Subset.refl _) (List.Subset.refl _)

theorem publishCurrentState (sound : c.Sound) : c.publishCurrentState.Sound :=
  sound.of_same (by simp) (by simp) (by simp) (by simp) (by simp) (by simp) (by simp)

theorem published (sound : c.Sound) (succeeded : Bool) : (c.perform (.published succeeded)).Sound := by
  have counted : ({ c with inFlight := c.inFlight - 1 } : Config).Sound :=
    sound.of_same rfl rfl rfl rfl rfl (List.Subset.refl _) (List.Subset.refl _)
  cases succeeded with
  | false => exact counted
  | true => exact counted.of_same rfl rfl rfl rfl rfl (List.Subset.refl _) (List.Subset.refl _)

end Config.Sound

/-! ## Steps that are tolerated -/

/-- The adapter answers and reports errors as the types of its interface
prescribe. -/
def Event.SuppliesConforming : Event → Prop
  | .order _ adapter | .instantActions _ adapter => adapter.Conforms
  | .updateActionStatus _ change =>
      ∀ error ∈ change.linkedState.errors.getD [], error.error.conforms
  | .updatePartialState newState _ => ∀ error ∈ newState.errors.getD [], error.error.conforms
  | .updateErrors error _ _ => error.conforms
  | _ => True

/-- The loop over instant actions stays inside the queue, they are dispatched
while the active order is known, and order actions are canceled while there is
an order. -/
def Frame.Tolerated (agv : AgvController) : Frame → Prop
  | .processInstantActions i stopIndex _ =>
      i < stopIndex → i < agv.currentInstantActions.length ∧ agv.lacksCurrentOrder = false
  | .processInstantAction .. => agv.lacksCurrentOrder = false
  | .cancelOrderActions (state :: _) _ =>
      agv.currentOrder.isSome ∨ agv.isInstantActionState state ∨ state.actionStatus.isEnded
  | _ => True

instance (agv : AgvController) (frame : Frame) : Decidable (frame.Tolerated agv) := by
  unfold Frame.Tolerated
  split <;> infer_instance

/-- The step takes no branch that throws: an invalid payload can be reported,
instant actions are checked while the active order is known, an edge that has
been traversed leads to a node, `stopped` completes a cancelation, and errors
are compared by references they have. -/
def Tolerates (c : Config) : Event → Prop
  | .proceed => ∀ frame ∈ c.stack.head?, frame.Tolerated c.agv
  | .invalidOrder payload _ => isReportableOrder payload
  | .instantActions message _ => message.actions = [] ∨ c.agv.lacksCurrentOrder = false
  | .invalidInstantActions payload _ => areReportableInstantActions payload
  | .edgeTraversed context => c.agv.hasCancelingOrder ∨ context.endNode.isSome
  | .stopped _ => c.agv.hasCancelingOrder
  | .updateErrors error mode _ => (newErrors c.agv.currentState.errors error mode).isOk
  | _ => True

instance (c : Config) (event : Event) : Decidable (Tolerates c event) :=
  match event with
  | .proceed => inferInstanceAs (Decidable (∀ frame ∈ c.stack.head?, frame.Tolerated c.agv))
  | .invalidOrder payload _ => inferInstanceAs (Decidable (isReportableOrder payload = true))
  | .instantActions message _ =>
      inferInstanceAs (Decidable (message.actions = [] ∨ c.agv.lacksCurrentOrder = false))
  | .invalidInstantActions payload _ =>
      inferInstanceAs (Decidable (areReportableInstantActions payload = true))
  | .edgeTraversed context =>
      inferInstanceAs (Decidable
        (c.agv.hasCancelingOrder = true ∨ context.endNode.isSome = true))
  | .stopped _ => inferInstanceAs (Decidable (c.agv.hasCancelingOrder = true))
  | .updateErrors error mode _ =>
      inferInstanceAs (Decidable
        ((newErrors c.agv.currentState.errors error mode).isOk = true))
  | .order .. | .updateActionStatus .. | .drivingToNextNode _
  | .updatePartialState .. | .publishTimer | .published _ | .connection _ => isTrue trivial

namespace Config

variable {c : Config}

theorem Sound.resume (sound : c.Sound) {frame : Frame} (fits : frame.Sound c.agv.currentOrder)
    (tolerated : frame.Tolerated c.agv) : (c.resume frame).Sound := by
  cases frame with
  | adapter => exact sound
  | finishEdgeActions | nodeTraversed | processNodeAction | processEdgeAction =>
      exact sound.move (fits rfl) (resume_order_move c rfl) (resume_order_crashed (fits rfl) rfl)
  | cancelOrderActions states hasActionsToBeCanceled =>
      cases states with
      | nil =>
          simp only [Config.resume]
          split
          · exact sound
          · exact sound.onOrderActionsCanceled
      | cons state states =>
          simp only [Config.resume, cancelOrderAction]
          split
          · next unfinished =>
            have known : c.agv.currentOrder.isSome := by
              rcases tolerated with known | instant | ended
              · exact known
              · simp [instant] at unfinished
              · simp [ended] at unfinished
            obtain ⟨order, found⟩ := Option.isSome_iff_exists.mp known
            simp only [found]
            have observed :
                (c.observe (.cancelAction (cancelActionContext order state.actionId))).Sound :=
              sound.of_same rfl rfl rfl rfl rfl (List.Subset.refl _) (List.Subset.refl _)
            apply observed.call
            intro frame member
            rcases List.mem_cons.mp member with rfl | last
            · exact fun isOrderFrame => by cases isOrderFrame
            · rw [List.mem_singleton.mp last]
              exact fun isOrderFrame => by cases isOrderFrame
          · exact sound.callOne fun isOrderFrame => by cases isOrderFrame
  | processInstantActionChunk afterAction skipInitialHard =>
      exact sound.processInstantActionChunk afterAction skipInitialHard
  | processInstantActions i stopIndex stopDriving =>
      simp only [Config.resume]
      split
      · next more =>
        obtain ⟨inside, known⟩ := tolerated more
        rw [List.getElem?_eq_getElem inside]
        have called : (c.call [.processInstantActions (i + 1) stopIndex stopDriving]).Sound :=
          sound.callOne fun isOrderFrame => by cases isOrderFrame
        exact called.processInstantAction known _ stopDriving
      · exact sound
  | processInstantAction action stopDriving =>
      obtain ⟨present, rfl⟩ := Option.isSome_iff_exists.mp fits
      exact sound.processInstantAction tolerated present stopDriving
  | resumePausedNode =>
      simp only [Config.resume, Config.resumePausedNode]
      cases parked : c.agv.currentPausedNode with
      | none => exact sound
      | some pausedNode =>
          have order := sound.pausedNode (by simp [parked])
          have cleared :
              ({ c with agv := { c.agv with currentPausedNode := none } } : Config).Sound :=
            of_order sound.running order sound.canceling sound.dispatches
          dsimp only
          split
          · exact cleared
          · exact cleared.processNode order pausedNode none

theorem Sound.popped {frame : Frame} {stack : List Frame} (sound : c.Sound)
    (top : c.stack = frame :: stack) : ({ c with stack := stack } : Config).Sound where
  running := sound.running
  stack other member := sound.stack other (by simp [top, member])
  executing := sound.executing
  traversing := sound.traversing
  pausedNode := sound.pausedNode
  canceling := sound.canceling

theorem Sound.perform (sound : c.Sound) {event : Event} (contract : AdapterContract c event)
    (tolerates : Tolerates c event) : (c.perform event).Sound := by
  cases event with
  | proceed =>
      simp only [Config.perform, proceed]
      split
      · exact sound
      · next frame stack top =>
        apply (sound.popped top).resume (sound.stack frame (by simp [top]))
        exact tolerates frame (by simp [top])
  | order order adapter => exact sound.processOrder order adapter
  | invalidOrder payload message =>
      obtain ⟨error, created, -⟩ := (createInvalidOrderError_iff payload
        ("invalid order: " ++ message)).mpr tolerates
      simp only [Config.perform, processInvalidOrder, created]
      exact sound.rejectOrder error
  | instantActions message adapter => exact sound.processInstantActions tolerates adapter
  | invalidInstantActions payload message =>
      obtain ⟨error, created⟩ := (createInstantActionsValidationError_iff payload
        ("invalid instant actions: " ++ message)).mpr tolerates
      simp only [Config.perform, processInvalidInstantActions, created]
      exact sound.addInstantActionError error
  | updateActionStatus context change => exact sound.adapterReports contract.1 change
  | edgeTraversed context =>
      have order := sound.traversing context contract
      have traversed : ({ c with traversing := c.traversing.erase context }.observe
          (.edgeTraversed context)).Sound :=
        sound.of_same rfl rfl rfl rfl rfl (List.Subset.refl _) List.erase_subset
      simp only [Config.perform, updateEdgeTraversed]
      split
      · exact traversed
      · next going =>
        have reached : context.endNode.isSome := tolerates.resolve_left going
        obtain ⟨endNode, found⟩ := Option.isSome_iff_exists.mp reached
        simp only [found]
        exact traversed.processNode order endNode _
  | stopped context =>
      obtain ⟨cancelOrderContext, pending⟩ := Option.isSome_iff_exists.mp tolerates
      have canceled :
          (Config.canceled { c with stopping := c.stopping.erase context } context).Sound := by
        apply Sound.updateState
        exact { sound with canceling := fun _ none => by cases none }
      simp only [Config.perform]
      rw [stopped_some (c := { c with stopping := c.stopping.erase context }) pending]
      exact canceled.updateActionStatus (fun order => absurd (sound.canceling _ pending) order) _
  | drivingToNextNode nextNode => exact sound.updateState _ true
  | updatePartialState newState reportImmediately =>
      exact sound.updatePartialState newState reportImmediately
  | updateErrors error mode reportImmediately =>
      obtain ⟨updated, changed⟩ := isOk_iff.mp tolerates
      simp only [Config.perform, updateErrors, changed]
      cases updated with
      | none => exact sound
      | some errors => exact sound.updatePartialState _ reportImmediately
  | publishTimer => exact sound.publishCurrentState
  | published succeeded => exact sound.published succeeded
  | connection online =>
      have connected : ({ c with online := online } : Config).Sound :=
        sound.of_same rfl rfl rfl rfl rfl (List.Subset.refl _) (List.Subset.refl _)
      simp only [Config.perform]
      split
      · have reconnected : ({ c with online := true } : Config).Sound :=
          sound.of_same rfl rfl rfl rfl rfl (List.Subset.refl _) (List.Subset.refl _)
        exact reconnected.publishCurrentState
      · exact connected

/-! ## The errors in the state -/

private theorem actionError_conforms {context : ActionContext} {change : ActionStatusChangeInfo}
    {error : Error} (failed : actionError context change = some error) : error.conforms := by
  unfold actionError at failed
  split at failed
  · split at failed
    · cases failed
    · rw [← Option.some.inj failed]
      exact createActionError_conforms _ _ _ (by simp)
  · cases failed

private theorem checkInstantActionExecutable_conforms {agv : AgvController}
    {adapter : AdapterAnswers} (conforms : adapter.Conforms) {action : Action} {error : Error}
    (notExecutable : checkInstantActionExecutable agv adapter action = some error) :
    error.conforms := by
  unfold checkInstantActionExecutable at notExecutable
  dsimp only at notExecutable
  split at notExecutable
  · split at notExecutable
    · rw [← Option.some.inj notExecutable]
      exact createActionError_conforms _ _ _ (by simp)
    · split at notExecutable
      · rw [← Option.some.inj notExecutable]
        exact createActionError_conforms _ _ _ (by simp)
      · cases notExecutable
  · split at notExecutable
    · cases notExecutable
    · rw [← Option.some.inj notExecutable]
      exact createActionError_conforms _ _ _ (conforms.isActionExecutable _)

/-- Every error a tolerated step creates conforms to the State schema. -/
private theorem creates_conforms {event : Event} (typed : event.SuppliesConforming)
    (tolerates : Tolerates c event) {error : Error} (created : event.Creates c error) :
    error.conforms := by
  cases created with
  | failedAction failed => exact actionError_conforms failed
  | rejectedAction notExecutable => exact checkInstantActionExecutable_conforms typed notExecutable
  | invalidInstantActions created => exact createInstantActionsValidationError_conforms created
  | supplied supplied =>
      cases event with
      | order order adapter =>
          simp only [Event.suppliedErrors, Option.mem_toList] at supplied
          unfold OrderDecision.rejection at supplied
          split at supplied
          · next rejected =>
            rw [← Option.some.inj supplied]
            exact typed.decideOrder rejected
          · cases supplied
          · cases supplied
      | invalidOrder payload message =>
          obtain ⟨reported, built, conforms⟩ := (createInvalidOrderError_iff payload
            ("invalid order: " ++ message)).mpr tolerates
          simp only [Event.suppliedErrors, built, Except.toOption, Option.toList_some,
            List.mem_singleton] at supplied
          exact supplied ▸ conforms
      | updateActionStatus context change =>
          obtain ⟨original, member, rfl⟩ := List.mem_map.mp supplied
          exact typed original member
      | updatePartialState newState reportImmediately =>
          obtain ⟨original, member, rfl⟩ := List.mem_map.mp supplied
          exact typed original member
      | updateErrors error mode reportImmediately =>
          rw [List.mem_singleton.mp supplied]
          exact typed
      | _ => simp [Event.suppliedErrors] at supplied

/-- The controller goes on, and its errors pass outbound validation. -/
structure Robust (c : Config) : Prop where
  running : c.crashed = false
  conform : ∀ error ∈ c.agv.currentState.errors, error.error.conforms

theorem Robust.perform (robust : c.Robust) (sound : c.Sound) {event : Event}
    (contract : AdapterContract c event) (typed : event.SuppliesConforming)
    (tolerates : Tolerates c event) : (c.perform event).Robust where
  running := (sound.perform contract tolerates).running
  conform error member := by
    rcases (perform_errorsCreated c event).source member with created | ⟨original, old, same⟩
    · exact creates_conforms typed tolerates created
    · rw [← same]
      exact robust.conform original old

/-- A step that is not tolerated throws an error, or reports one that does not
conform to the State schema. -/
private theorem tolerates_of_robust {event : Event} (robust : (c.perform event).Robust) :
    Tolerates c event := by
  have thrown : ∀ {next : Config}, c.perform event = next.throwTypeError → False := by
    intro next threw
    have running := robust.running
    rw [threw] at running
    cases running
  cases event with
  | proceed =>
      intro frame found
      obtain ⟨stack, top⟩ := List.head?_eq_some_iff.mp found
      cases frame with
      | processInstantActions i stopIndex stopDriving =>
          intro more
          by_contra outside
          apply thrown
          simp only [Config.perform, proceed, top, Config.resume, if_pos more]
          apply processInstantAction_throws
          rw [not_and_or, Bool.not_eq_false] at outside
          exact outside.imp_left fun outside => List.getElem?_eq_none (Nat.le_of_not_lt outside)
      | processInstantAction action stopDriving =>
          by_contra unknown
          apply thrown
          simp only [Config.perform, proceed, top, Config.resume]
          exact processInstantAction_throws _ (.inr (by simpa [Frame.Tolerated] using unknown)) _
      | cancelOrderActions states hasActionsToBeCanceled =>
          cases states with
          | nil => trivial
          | cons state states =>
              by_contra unknown
              simp only [Frame.Tolerated, not_or, Bool.not_eq_true, Option.isSome_eq_false_iff,
                Option.isNone_iff_eq_none] at unknown
              apply thrown
              simp only [Config.perform, proceed, top, Config.resume, cancelOrderAction]
              rw [if_pos (by simpa using unknown.2)]
              simp only [unknown.1]
              rfl
      | _ => trivial
  | invalidOrder payload message =>
      apply (createInvalidOrderError_iff payload ("invalid order: " ++ message)).mp
      cases created : createInvalidOrderError payload ("invalid order: " ++ message) with
      | error failure =>
          exfalso
          apply thrown
          simp only [Config.perform, processInvalidOrder, created]
          rfl
      | ok error =>
          refine ⟨error, rfl, robust.conform { ref := c.agv.nextErrorRef, error := error } ?_⟩
          simp [Config.perform, processInvalidOrder, created, rejectOrder, addError, observe,
            State.merge]
  | instantActions message adapter =>
      by_contra unknown
      simp only [Tolerates, not_or, Bool.not_eq_false] at unknown
      apply thrown
      simp only [Config.perform, processInstantActions]
      exact if_pos (by simp [unknown])
  | invalidInstantActions payload message =>
      apply (createInstantActionsValidationError_iff payload
        ("invalid instant actions: " ++ message)).mp
      cases created : createInstantActionsValidationError payload
          ("invalid instant actions: " ++ message) with
      | error failure =>
          exfalso
          apply thrown
          simp only [Config.perform, processInvalidInstantActions, created]
          rfl
      | ok error => exact ⟨error, rfl⟩
  | edgeTraversed context =>
      by_contra lost
      simp only [Tolerates, not_or, Bool.not_eq_true, Option.isSome_eq_false_iff,
        Option.isNone_iff_eq_none] at lost
      apply thrown
      simp only [Config.perform, updateEdgeTraversed, lost.2]
      exact if_neg (by simpa [observe] using lost.1)
  | stopped context =>
      by_contra idle
      simp only [Tolerates, hasCancelingOrder, Bool.not_eq_true, Option.isSome_eq_false_iff,
        Option.isNone_iff_eq_none] at idle
      apply thrown
      simp only [Config.perform, stopped, idle]
      rfl
  | updateErrors error mode reportImmediately =>
      simp only [Tolerates]
      cases changed : newErrors c.agv.currentState.errors error mode with
      | error failure =>
          exfalso
          apply thrown
          simp only [Config.perform, updateErrors, changed]
          rfl
      | ok updated => rfl
  | _ => trivial

end Config

/-! ## Delivered payloads -/

/-- A payload delivered on topic order, judged by the validator of its schema. -/
def Event.deliverOrder (validateOrder : Json → Except String Order) (payload : Json)
    (adapter : AdapterAnswers) : Event :=
  match validateOrder payload with
  | .ok received => .order received adapter
  | .error message => .invalidOrder payload message

/-- A payload delivered on topic instantActions, judged likewise. -/
def Event.deliverInstantActions (validateInstantActions : Json → Except String InstantActions)
    (payload : Json) (adapter : AdapterAnswers) : Event :=
  match validateInstantActions payload with
  | .ok message => .instantActions message adapter
  | .error message => .invalidInstantActions payload message

private theorem tolerates_deliverOrder_iff (c : Config) (adapter : AdapterAnswers)
    {validateOrder : Json → Except String Order} {payload : Json} :
    Tolerates c (.deliverOrder validateOrder payload adapter) ↔
      (validateOrder payload).isOk ∨ isReportableOrder payload := by
  unfold Event.deliverOrder
  cases validateOrder payload <;> simp [Tolerates, Except.isOk, Except.toBool]

/-- Where a valid payload has instant actions to be checked, the active order is known. -/
def KnowsActiveOrder (validateInstantActions : Json → Except String InstantActions)
    (payload : Json) (c : Config) : Prop :=
  ∀ message, validateInstantActions payload = .ok message →
    message.actions = [] ∨ c.agv.lacksCurrentOrder = false

private theorem tolerates_deliverInstantActions_iff (c : Config) (adapter : AdapterAnswers)
    {validateInstantActions : Json → Except String InstantActions} {payload : Json} :
    Tolerates c (.deliverInstantActions validateInstantActions payload adapter) ↔
      KnowsActiveOrder validateInstantActions payload c ∧
        ((validateInstantActions payload).isOk ∨ areReportableInstantActions payload) := by
  unfold Event.deliverInstantActions KnowsActiveOrder
  cases validateInstantActions payload <;> simp [Tolerates, Except.isOk, Except.toBool]

/-- In every run whose steps are all tolerated the controller is robust in the
state reached. A payload delivered there leaves it so if and only if the
payload is valid or can be reported, and the active order is known where
instant actions are checked. Any other step does if and only if it is
tolerated. -/
theorem robust_of_run {limit : Nat} {events : List Event} {c : Config}
    (run : Library.Run Config.step (fun c event => AdapterContract c event ∧ Tolerates c event)
      (Config.initial limit) events c)
    (typed : ∀ event ∈ events, event.SuppliesConforming) :
    c.Robust ∧
      (∀ validateOrder payload adapter next, adapter.Conforms →
        c.step (.deliverOrder validateOrder payload adapter) = some next →
        (next.Robust ↔ (validateOrder payload).isOk ∨ isReportableOrder payload)) ∧
      (∀ validateInstantActions payload adapter next, adapter.Conforms →
        c.step (.deliverInstantActions validateInstantActions payload adapter) = some next →
        (next.Robust ↔ KnowsActiveOrder validateInstantActions payload c ∧
          ((validateInstantActions payload).isOk ∨ areReportableInstantActions payload))) ∧
      ∀ event next, AdapterContract c event → event.SuppliesConforming →
        c.step event = some next → (next.Robust ↔ Tolerates c event) := by
  have reached : c.Robust ∧ c.Sound := by
    refine (run.restrict typed).invariant (fun c => c.Robust ∧ c.Sound) ?_ ?_
    · refine ⟨⟨rfl, ?_⟩, .initial limit⟩
      simp [Config.initial, AgvController.initial]
    · rintro events c event next - ⟨robust, sound⟩ ⟨⟨contract, tolerates⟩, typed⟩ stepped
      obtain ⟨-, rfl⟩ := Config.step_eq_some.mp stepped
      exact ⟨robust.perform sound contract typed tolerates, sound.perform contract tolerates⟩
  obtain ⟨robust, sound⟩ := reached
  have exact : ∀ event next, AdapterContract c event → event.SuppliesConforming →
      c.step event = some next → (next.Robust ↔ Tolerates c event) := by
    intro event next contract typed stepped
    obtain ⟨-, rfl⟩ := Config.step_eq_some.mp stepped
    exact ⟨Config.tolerates_of_robust, robust.perform sound contract typed⟩
  refine ⟨robust, ?_, ?_, exact⟩
  · intro validateOrder payload adapter next conforms stepped
    rw [← tolerates_deliverOrder_iff c adapter]
    apply exact _ _ _ _ stepped
    · unfold Event.deliverOrder
      split <;> trivial
    · unfold Event.deliverOrder
      split
      · exact conforms
      · trivial
  · intro validateInstantActions payload adapter next conforms stepped
    rw [← tolerates_deliverInstantActions_iff c adapter]
    apply exact _ _ _ _ stepped
    · unfold Event.deliverInstantActions
      split <;> trivial
    · unfold Event.deliverInstantActions
      split
      · exact conforms
      · trivial

/-- An invalid order is reported, and a valid one accepted after it. -/
theorem robust_of_run_of_invalidOrder :
    ∃ c, Library.Run Config.step (fun c event => AdapterContract c event ∧ Tolerates c event)
        (Config.initial 5)
        [.invalidOrder (.obj [("headerId", .num 1 "1"), ("orderId", .str "order")]) "nodes",
          .order (driveOrder "order" [] [] []) {}] c ∧
      c.Robust := by
  have passed : (Library.execute Config.step
      (fun c event => AdapterContract c event ∧ Tolerates c event) (Config.initial 5)
        [.invalidOrder (.obj [("headerId", .num 1 "1"), ("orderId", .str "order")]) "nodes",
          .order (driveOrder "order" [] [] []) {}]).any (fun _ => true) = true := by
    decide
  obtain ⟨c, run, -⟩ := Library.exists_run_of_execute passed
  refine ⟨c, run, (robust_of_run run ?_).1⟩
  intro event member
  rcases List.mem_cons.mp member with rfl | last
  · trivial
  · rw [List.mem_singleton.mp last]
    exact AdapterAnswers.conforms_empty

/-- A payload without a text for `headerId` ends the process, and one with an
`orderId` that is not a text leaves an error no State can be published with. -/
theorem not_robust_of_nullHeaderId :
    ∃ rejecting : Json → Except String Order, ∃ crashed reported,
      (Config.initial 5).step (.deliverOrder rejecting (.obj [("headerId", .null)]) {}) =
        some crashed ∧ crashed.crashed = true ∧
      (Config.initial 5).step (.deliverOrder rejecting (.obj [("orderId", .num 1 "1")]) {}) =
        some reported ∧ ∃ error ∈ reported.agv.currentState.errors, error.error.conforms = false :=
  ⟨fun _ => .error "Invalid VDA 5050 Order", _, _, rfl, rfl, rfl, by decide⟩

end Vda5050
