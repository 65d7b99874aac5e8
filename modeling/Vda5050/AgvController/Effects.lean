import Vda5050.AgvController.Contract

/-!
# Effects of the controller methods

What publishing and updating the state leave alone, and what the methods that
process nodes, edges and order actions may change.
-/

set_option autoImplicit false

namespace Vda5050

open AgvController

theorem mem_keys_setEntry {Key : Type} [DecidableEq Key] {key id : Key}
    {entries : List (Key × Nat)} :
    id ∈ (setEntry key 0 entries).map (·.1) ↔ id = key ∨ id ∈ entries.map (·.1) := by
  unfold setEntry
  split
  · next present =>
    have member : key ∈ entries.map (·.1) := by simpa using present
    have same : (entries.map fun entry => if entry.1 = key then (key, 0) else entry).map (·.1) =
        entries.map (·.1) := by
      rw [List.map_map]
      refine List.map_congr_left fun entry _ => ?_
      simp only [Function.comp_apply]
      split
      · next equal => exact equal.symm
      · rfl
    rw [same]
    exact ⟨.inr, fun either => either.elim (fun equal => equal ▸ member) fun known => known⟩
  · simp [or_comm]

namespace Config

/-! ## Publications and state updates -/

section Publication

variable (c : Config)

@[simp] theorem publishCurrentState_agv : c.publishCurrentState.agv = c.agv := by
  unfold publishCurrentState
  split <;> rfl

@[simp] theorem publishCurrentState_stack : c.publishCurrentState.stack = c.stack := by
  unfold publishCurrentState
  split <;> rfl

@[simp] theorem publishCurrentState_executing :
    c.publishCurrentState.executing = c.executing := by
  unfold publishCurrentState
  split <;> rfl

@[simp] theorem publishCurrentState_traversing :
    c.publishCurrentState.traversing = c.traversing := by
  unfold publishCurrentState
  split <;> rfl

@[simp] theorem publishCurrentState_stopping : c.publishCurrentState.stopping = c.stopping := by
  unfold publishCurrentState
  split <;> rfl

@[simp] theorem publishCurrentState_log : c.publishCurrentState.log = c.log := by
  unfold publishCurrentState
  split <;> rfl

@[simp] theorem publishCurrentState_received : c.publishCurrentState.received = c.received := by
  unfold publishCurrentState
  split <;> rfl

@[simp] theorem publishCurrentState_crashed : c.publishCurrentState.crashed = c.crashed := by
  unfold publishCurrentState
  split <;> rfl

theorem publishCurrentState_eq :
    c.publishCurrentState =
      { c with
        published := c.publishCurrentState.published
        inFlight := c.publishCurrentState.inFlight } := by
  by_cases accepted : c.online && c.agv.currentState.errors.all (·.error.conforms)
  · simp [publishCurrentState, accepted]
  · simp [publishCurrentState, accepted]

end Publication

section Update

variable (c : Config) (newPartialState : PartialState) (publishImmediately : Bool)

@[simp] theorem updateState_agv :
    (c.updateState newPartialState publishImmediately).agv =
      { c.agv with currentState := c.agv.currentState.merge newPartialState } := by
  cases publishImmediately <;> simp [updateState, mergeState]

@[simp] theorem updateState_stack :
    (c.updateState newPartialState publishImmediately).stack = c.stack := by
  cases publishImmediately <;> simp [updateState, mergeState]

@[simp] theorem updateState_executing :
    (c.updateState newPartialState publishImmediately).executing = c.executing := by
  cases publishImmediately <;> simp [updateState, mergeState]

@[simp] theorem updateState_traversing :
    (c.updateState newPartialState publishImmediately).traversing = c.traversing := by
  cases publishImmediately <;> simp [updateState, mergeState]

@[simp] theorem updateState_stopping :
    (c.updateState newPartialState publishImmediately).stopping = c.stopping := by
  cases publishImmediately <;> simp [updateState, mergeState]

@[simp] theorem updateState_log :
    (c.updateState newPartialState publishImmediately).log = c.log := by
  cases publishImmediately <;> simp [updateState, mergeState]

@[simp] theorem updateState_received :
    (c.updateState newPartialState publishImmediately).received = c.received := by
  cases publishImmediately <;> simp [updateState, mergeState]

@[simp] theorem updateState_crashed :
    (c.updateState newPartialState publishImmediately).crashed = c.crashed := by
  cases publishImmediately <;> simp [updateState, mergeState]

/-- What is published is the updated state. -/
theorem updateState_published :
    ∃ states, (c.updateState newPartialState publishImmediately).published = c.published ++ states ∧
      ∀ state ∈ states, state = c.agv.currentState.merge newPartialState := by
  cases publishImmediately with
  | false => exact ⟨[], by simp [updateState, mergeState], by simp⟩
  | true =>
      simp only [updateState, if_true, publishCurrentState]
      split
      · exact ⟨[_], rfl, by simp [mergeState]⟩
      · exact ⟨[], by simp [mergeState], by simp⟩

/-- Besides the state, an update affects at most the publications. -/
theorem updateState_eq :
    c.updateState newPartialState publishImmediately =
      { c with
        agv := { c.agv with currentState := c.agv.currentState.merge newPartialState }
        published := (c.updateState newPartialState publishImmediately).published
        inFlight := (c.updateState newPartialState publishImmediately).inFlight } := by
  cases publishImmediately with
  | false => rfl
  | true => exact publishCurrentState_eq (c.mergeState newPartialState)

end Update

end Config

/-! ## Reports of action states -/

namespace AgvController

theorem cloneState_fst (agv : AgvController) (state : PartialState) :
    (agv.cloneState state).1 = { state with errors := (agv.cloneState state).1.errors } := by
  unfold cloneState
  split <;> rfl

theorem cloneState_snd (agv : AgvController) (state : PartialState) :
    (agv.cloneState state).2 = { agv with nextErrorRef := (agv.cloneState state).2.nextErrorRef } := by
  unfold cloneState
  split <;> rfl

/-- The controller after a status report. Linked states that describe the
vehicle leave the order related properties of the state alone. -/
def Reports (agv : AgvController) (state : ActionState) (linkedState : PartialState)
    (next : AgvController) : Prop :=
  ∃ currentState nextErrorRef,
    next = { agv with currentState := currentState, nextErrorRef := nextErrorRef } ∧
      currentState.actionStates = Config.newActionStates agv.currentState.actionStates state ∧
      currentState.nodeStates = agv.currentState.nodeStates ∧
      currentState.edgeStates = agv.currentState.edgeStates ∧
      currentState.lastNodeId = linkedState.lastNodeId.getD agv.currentState.lastNodeId ∧
      currentState.lastNodeSequenceId =
        linkedState.lastNodeSequenceId.getD agv.currentState.lastNodeSequenceId ∧
      currentState.paused = (linkedState.paused <|> agv.currentState.paused)

end AgvController

namespace Config

section Report

variable (c : Config) (context : ActionContext) (change : ActionStatusChangeInfo)

theorem reportActionStatus_agv (vehicle : change.linkedState.isVehicleState) :
    c.agv.Reports (newActionState context change) change.linkedState
      (c.reportActionStatus context change).agv := by
  obtain ⟨noActions, noNodes, noEdges, -, -⟩ := vehicle
  refine ⟨(c.reportActionStatus context change).agv.currentState,
    (c.reportActionStatus context change).agv.nextErrorRef, ?_, ?_, ?_, ?_, ?_, ?_, ?_⟩
  · simp only [reportActionStatus, observe, updateState_agv]
    rw [cloneState_snd]
  all_goals
    simp only [reportActionStatus, observe, updateState_agv]
    rw [cloneState_fst, cloneState_snd]
    simp [State.merge, PartialState.assign, noActions, noNodes, noEdges]

@[simp] theorem reportActionStatus_stack :
    (c.reportActionStatus context change).stack = c.stack := by
  simp [reportActionStatus, observe]

@[simp] theorem reportActionStatus_executing :
    (c.reportActionStatus context change).executing = c.executing := by
  simp [reportActionStatus, observe]

@[simp] theorem reportActionStatus_traversing :
    (c.reportActionStatus context change).traversing = c.traversing := by
  simp [reportActionStatus, observe]

@[simp] theorem reportActionStatus_stopping :
    (c.reportActionStatus context change).stopping = c.stopping := by
  simp [reportActionStatus, observe]

@[simp] theorem reportActionStatus_log :
    (c.reportActionStatus context change).log =
      c.log ++ [.actionStatus context change.actionStatus] := by
  simp [reportActionStatus, observe]

@[simp] theorem reportActionStatus_received :
    (c.reportActionStatus context change).received = c.received := by
  simp [reportActionStatus, observe]

@[simp] theorem reportActionStatus_crashed :
    (c.reportActionStatus context change).crashed = c.crashed := by
  simp [reportActionStatus, observe]

end Report

/-- The reported state is the first one of the action. -/
theorem find?_newActionStates (states : List ActionState) (reported : ActionState) :
    (newActionStates states reported).find? (·.actionId = reported.actionId) = some reported := by
  unfold newActionStates
  split
  · next absent =>
    have missed : states.find? (·.actionId = reported.actionId) = none := by
      rw [List.find?_eq_none]
      simpa using List.findIdx?_eq_none_iff.mp absent
    rw [List.find?_append, missed]
    simp
  · next index found =>
    obtain ⟨inside, -, before⟩ := List.findIdx?_eq_some_iff_getElem.mp found
    rw [List.find?_eq_some_iff_getElem]
    refine ⟨by simp, index, by simpa using inside, by simp, ?_⟩
    intro earlier less
    rw [List.getElem_set_ne (Nat.ne_of_gt less)]
    simpa using before earlier less

/-- The first states of other actions remain. -/
theorem find?_newActionStates_of_ne (states : List ActionState) {reported : ActionState}
    {id : String} (other : reported.actionId ≠ id) :
    (newActionStates states reported).find? (·.actionId = id) =
      states.find? (·.actionId = id) := by
  unfold newActionStates
  split
  · simp [List.find?_append, other]
  · next index found =>
    obtain ⟨inside, same, -⟩ := List.findIdx?_eq_some_iff_getElem.mp found
    have replaced : (states[index]).actionId ≠ id := by
      rw [of_decide_eq_true same]
      exact other
    clear found same
    induction states generalizing index with
    | nil => rfl
    | cons state states ih =>
        cases index with
        | zero =>
            have first : state.actionId ≠ id := replaced
            simp [other, first]
        | succ index =>
            rw [List.set_cons_succ, List.find?_cons, List.find?_cons]
            split
            · rfl
            · exact ih index (Nat.lt_of_succ_lt_succ inside) replaced

/-- The configuration in which `_cancelOrder` has reported that it is running. -/
def cancelationStarted (c : Config) (context : ActionContext) : Config :=
  ((c.observe
    (.cancelOrder context c.agv.hasActiveOrder c.agv.hasCancelingOrder)).startCancelation
      context).reportActionStatus context { actionStatus := .running }

theorem cancelOrder_eq (c : Config) (context : ActionContext) :
    c.cancelOrder context =
      (c.cancelationStarted context).call
        [.cancelOrderActions (c.cancelationStarted context).agv.currentState.actionStates false] := by
  simp only [cancelOrder, updateActionStatus, ActionStatus.isEnded, Bool.not_false, if_true]
  rfl

/-- The queue without the ended action. -/
def dequeue (c : Config) (actions : List Action) : Config :=
  { c with agv := { c.agv with currentInstantActions := actions } }

/-- After the end of an instant action at most one call on the queue is to be made. -/
theorem instantActionEnded_eq (c : Config) (action : Action) :
    ∃ frames, c.instantActionEnded action =
        (c.dequeue (spliceAction c.agv.currentInstantActions action)).call frames ∧
      ∀ frame ∈ frames, frame = .processInstantActionChunk none false ∨
        ∃ next, frame = .processInstantAction (some next) true := by
  unfold instantActionEnded
  simp only
  split
  · exact ⟨[_], rfl, by simp⟩
  · split
    · exact ⟨[], rfl, by simp⟩
    · split
      · exact ⟨[_], rfl, by simp⟩
      · exact ⟨[], rfl, by simp⟩

theorem updateActionStatus_instant (c : Config) (context : ActionContext)
    (change : ActionStatusChangeInfo) (instant : context.scope = .instant)
    (ended : change.actionStatus.isEnded) :
    ∃ actions frames, c.updateActionStatus context change =
        ((c.reportActionStatus context change).dequeue actions).call frames ∧
      ∀ frame ∈ frames, frame = .processInstantActionChunk none false ∨
        ∃ next, frame = .processInstantAction (some next) true := by
  obtain ⟨frames, same, kinds⟩ :=
    instantActionEnded_eq (c.reportActionStatus context change) context.action
  have updated : c.updateActionStatus context change =
      (c.reportActionStatus context change).instantActionEnded context.action := by
    simp [updateActionStatus, ended, instant]
  exact ⟨_, frames, updated.trans same, kinds⟩

/-- The configuration in which the completed cancelation is to be reported. -/
def canceled (c : Config) (context : StopTraverseContext) : Config :=
  ({ c.observe (.stopped context c.agv.cancelOrderContext) with
    agv := { c.agv with cancelOrderContext := none } }).updateState
      { nodeStates := some [], edgeStates := some [] } false

@[simp] theorem canceled_agv (c : Config) (context : StopTraverseContext) :
    (c.canceled context).agv =
      { c.agv with
        cancelOrderContext := none
        currentState := { c.agv.currentState with nodeStates := [], edgeStates := [] } } := by
  simp [canceled, observe, State.merge]

@[simp] theorem canceled_stack (c : Config) (context : StopTraverseContext) :
    (c.canceled context).stack = c.stack := rfl

@[simp] theorem canceled_executing (c : Config) (context : StopTraverseContext) :
    (c.canceled context).executing = c.executing := rfl

@[simp] theorem canceled_stopping (c : Config) (context : StopTraverseContext) :
    (c.canceled context).stopping = c.stopping := rfl

@[simp] theorem canceled_log (c : Config) (context : StopTraverseContext) :
    (c.canceled context).log = c.log ++ [.stopped context c.agv.cancelOrderContext] := rfl

theorem stopped_some {c : Config} {cancelOrderContext : ActionContext}
    (active : c.agv.cancelOrderContext = some cancelOrderContext) (context : StopTraverseContext) :
    c.stopped context =
      (c.canceled context).updateActionStatus cancelOrderContext { actionStatus := .finished } := by
  unfold stopped canceled
  simp only [active]
  rfl

@[simp] theorem failWaitingAction_actionId (agv : AgvController) (state : ActionState) :
    (failWaitingAction agv state).actionId = state.actionId := by
  unfold failWaitingAction
  split <;> rfl

end Config

/-! ## Acceptance of instant actions -/

private theorem State.merge_errors (state : State) (errors : List StateError) :
    state.merge { errors := some errors } = { state with errors := errors } := by
  simp [State.merge]

/-- The controller after some actions of a message have been queued and errors
have been reported for the others. -/
def AgvController.Queues (agv : AgvController) (accepted : List Action)
    (next : AgvController) : Prop :=
  ∃ errors instantActionsErroredPublishCount nextErrorRef,
    next =
      { agv with
        currentState := { agv.currentState with errors := errors }
        instantActionsErroredPublishCount := instantActionsErroredPublishCount
        nextErrorRef := nextErrorRef
        currentInstantActions := agv.currentInstantActions ++ accepted }

namespace Config

variable (c : Config)

@[simp] theorem addError_stack (error : Error) : (c.addError error).stack = c.stack := by
  simp [addError]

private theorem addInstantActionError_eq (error : Error) :
    ∃ agv published inFlight,
      c.addInstantActionError error =
        { c with agv := agv, published := published, inFlight := inFlight } ∧
        c.agv.Queues [] agv := by
  unfold addInstantActionError addError
  rw [updateState_eq]
  exact ⟨_, _, _, rfl, _, _, _, by simp only [State.merge_errors, List.append_nil]; rfl⟩

/-- The accepted actions of a message are queued in their order. -/
theorem acceptInstantActions_eq (adapter : AdapterAnswers) (actions : List Action) :
    ∃ accepted agv published inFlight observations,
      c.acceptInstantActions adapter actions =
        { c with
          agv := agv, published := published, inFlight := inFlight
          log := c.log ++ observations } ∧
        c.agv.Queues accepted agv ∧ accepted.Sublist actions ∧
        acceptedInstantActions observations = accepted ∧
        ∀ observation ∈ observations, (∃ action, observation = .instantActionAccepted action) ∨
          ∃ action, observation = .instantActionRejected action := by
  induction actions generalizing c with
  | nil =>
      exact ⟨[], c.agv, c.published, c.inFlight, [], by simp [acceptInstantActions],
        ⟨_, _, _, by rw [List.append_nil]⟩, .slnil, rfl, by simp⟩
  | cons action actions ih =>
      unfold acceptInstantActions
      split
      · next error notExecutable =>
        obtain ⟨agv, published, inFlight, rejected, errors, counts, ref, rfl⟩ :=
          addInstantActionError_eq c error
        rw [rejected]
        obtain ⟨accepted, agv', published', inFlight', observations, same,
          ⟨errors', counts', ref', rfl⟩, sub, queued, kinds⟩ := ih _
        rw [same]
        refine ⟨accepted, _, published', inFlight', .instantActionRejected action :: observations, ?_,
          ⟨errors', counts', ref', rfl⟩, sub.cons action, ?_, ?_⟩
        · simp [observe]
        · simpa [acceptedInstantActions] using queued
        · simpa using kinds
      · obtain ⟨accepted, agv', published', inFlight', observations, same,
          ⟨errors', counts', ref', rfl⟩, sub, queued, kinds⟩ := ih _
        rw [same]
        refine ⟨action :: accepted, _, published', inFlight',
          .instantActionAccepted action :: observations, ?_,
          ⟨errors', counts', ref', rfl⟩, sub.cons_cons action, ?_, ?_⟩
        · simp [observe]
        · simpa [acceptedInstantActions] using queued
        · simpa using kinds

end Config

/-! ## Moves along an order -/

/-- Frames of the methods that process nodes, edges and order actions. -/
def Frame.isOrderFrame : Frame → Bool
  | .finishEdgeActions .. | .nodeTraversed .. | .processNodeAction .. | .processEdgeAction .. =>
      true
  | _ => false

/-- Observations made by these methods. -/
def Observation.isOrderMove : Observation → Bool
  | .executeAction context => context.scope ≠ .instant
  | .finishEdgeAction _ | .traverseEdge _ | .nodeTraversed _ => true
  | _ => false

/-- The controller reports the traversal of a node or edge or parks a node,
and nothing else about it changes. -/
def AgvController.MovesTo (agv next : AgvController) : Prop :=
  ∃ currentPausedNode nodeStates edgeStates lastNodeId lastNodeSequenceId,
    next =
      { agv with
        currentPausedNode := currentPausedNode
        currentState :=
          { agv.currentState with
            nodeStates := nodeStates
            edgeStates := edgeStates
            lastNodeId := lastNodeId
            lastNodeSequenceId := lastNodeSequenceId } }

theorem AgvController.MovesTo.refl (agv : AgvController) : agv.MovesTo agv :=
  ⟨_, _, _, _, _, rfl⟩

theorem AgvController.MovesTo.trans {agv middle next : AgvController}
    (first : agv.MovesTo middle) (second : middle.MovesTo next) : agv.MovesTo next := by
  obtain ⟨_, _, _, _, _, rfl⟩ := first
  obtain ⟨_, _, _, _, _, rfl⟩ := second
  exact ⟨_, _, _, _, _, rfl⟩

/-- What the methods that process nodes, edges and order actions may do: hand
over order actions and edges to the adapter, and leave calls to be made. -/
structure OrderMove (c next : Config) : Prop where
  agv : c.agv.MovesTo next.agv
  stopping : next.stopping = c.stopping
  received : next.received = c.received
  executing : ∃ contexts, next.executing = contexts ++ c.executing ∧
    ∀ context ∈ contexts, context.scope ≠ .instant
  log : ∃ observations, next.log = c.log ++ observations ∧
    ∀ observation ∈ observations, observation.isOrderMove
  published : ∃ states, next.published = c.published ++ states ∧
    ∀ state ∈ states, state.errors = c.agv.currentState.errors
  stack : (next.crashed = c.crashed ∧ ∃ frames, next.stack = frames ++ c.stack ∧
      ∀ frame ∈ frames, frame = .adapter ∨ frame.isOrderFrame) ∨
    (next.crashed ∧ next.stack = [])

namespace OrderMove

theorem refl (c : Config) : OrderMove c c where
  agv := .refl _
  stopping := rfl
  received := rfl
  executing := ⟨[], rfl, by simp⟩
  log := ⟨[], by simp, by simp⟩
  published := ⟨[], by simp, by simp⟩
  stack := .inl ⟨rfl, [], rfl, by simp⟩

theorem crash (c : Config) : OrderMove c c.throwTypeError where
  agv := .refl _
  stopping := rfl
  received := rfl
  executing := ⟨[], rfl, by simp⟩
  log := ⟨[], by simp [Config.throwTypeError], by simp⟩
  published := ⟨[], by simp [Config.throwTypeError], by simp⟩
  stack := .inr ⟨rfl, rfl⟩

/-- Leave calls to be made. -/
theorem call (c : Config) {frames : List Frame}
    (order : ∀ frame ∈ frames, frame = .adapter ∨ frame.isOrderFrame) :
    OrderMove c (c.call frames) where
  agv := .refl _
  stopping := rfl
  received := rfl
  executing := ⟨[], rfl, by simp⟩
  log := ⟨[], by simp [Config.call], by simp⟩
  published := ⟨[], by simp [Config.call], by simp⟩
  stack := .inl ⟨rfl, frames, rfl, order⟩

/-- Calls are left to be made last. -/
theorem trans {c middle next : Config} (first : OrderMove c middle)
    (running : middle.crashed = c.crashed) (same : middle.stack = c.stack)
    (second : OrderMove middle next) : OrderMove c next := by
  obtain ⟨agv, stopping, received, ⟨contexts, executing, order⟩, ⟨observations, log, moves⟩,
    ⟨states, published, errors⟩, -⟩ := first
  obtain ⟨agv', stopping', received', ⟨contexts', executing', order'⟩,
    ⟨observations', log', moves'⟩, ⟨states', published', errors'⟩, stack'⟩ := second
  refine ⟨agv.trans agv', stopping'.trans stopping, received'.trans received,
    ⟨contexts' ++ contexts, by simp [executing', executing], ?_⟩,
    ⟨observations ++ observations', by simp [log', log], ?_⟩,
    ⟨states ++ states', by simp [published', published], ?_⟩, ?_⟩
  · intro context member
    rcases List.mem_append.mp member with member | member
    · exact order' context member
    · exact order context member
  · intro observation member
    rcases List.mem_append.mp member with member | member
    · exact moves observation member
    · exact moves' observation member
  · intro state member
    obtain ⟨_, _, _, _, _, middle⟩ := agv
    rcases List.mem_append.mp member with member | member
    · exact errors state member
    · rw [errors' state member, middle]
  · rcases stack' with ⟨running', frames', stack', order'⟩ | stopped
    · exact .inl ⟨running'.trans running, frames', by rw [stack', same], order'⟩
    · exact .inr stopped

end OrderMove

namespace Config

variable (c : Config)

private theorem traverseEdge_move (edge : Edge) : OrderMove c (c.traverseEdge edge) := by
  unfold traverseEdge
  split
  · exact .crash c
  · exact ⟨.refl _, rfl, rfl, ⟨[], rfl, by simp⟩, ⟨_, rfl, by simp [Observation.isOrderMove]⟩,
      ⟨[], by simp [observe, call], by simp⟩, .inl ⟨rfl, [.adapter], rfl, by simp⟩⟩

private theorem processEdgeActions_move (edge : Edge) (afterAction : Option Action) :
    OrderMove c (c.processEdgeActions edge afterAction) := by
  unfold processEdgeActions
  split
  · exact traverseEdge_move c edge
  · exact .call c (by simp [Frame.isOrderFrame])
  · exact .call c (by simp [Frame.isOrderFrame])

theorem processEdge_move (node : Node) : OrderMove c (c.processEdge node) := by
  unfold processEdge
  split
  · exact .crash c
  · split
    · exact .refl c
    · split
      · exact processEdgeActions_move c _ none
      · exact .refl c

theorem processNodeActions_move (node : Node) (afterAction : Option Action) :
    OrderMove c (c.processNodeActions node afterAction) := by
  unfold processNodeActions
  split
  · exact processEdge_move c node
  · exact .call c (by simp [Frame.isOrderFrame])
  · exact .call c (by simp [Frame.isOrderFrame])

private theorem nodeTraversed_move (node : Node) (traversedEdge : Option Edge) :
    OrderMove c (c.nodeTraversed node traversedEdge) := by
  unfold nodeTraversed
  refine OrderMove.trans ?_ ?_ ?_ (processNodeActions_move _ node none)
  · obtain ⟨states, published, updated⟩ := updateState_published c
      { nodeStates := some (c.agv.currentState.nodeStates.filter fun s =>
          !(s.nodeId = node.nodeId && s.sequenceId = node.sequenceId))
        edgeStates := traversedEdge.map fun edge => c.agv.currentState.edgeStates.filter fun s =>
          !(s.edgeId = edge.edgeId && s.sequenceId = edge.sequenceId)
        lastNodeId := some node.nodeId
        lastNodeSequenceId := some node.sequenceId } true
    exact
      { agv := ⟨c.agv.currentPausedNode, _, _, _, _, by simp only [observe, updateState_agv]; rfl⟩
        stopping := by simp [observe]
        received := by simp [observe]
        executing := ⟨[], by simp [observe], by simp⟩
        log := ⟨[.nodeTraversed node], by simp [observe], by simp [Observation.isOrderMove]⟩
        published := ⟨states, published, fun state member => by rw [updated state member]; rfl⟩
        stack := .inl ⟨by simp [observe], [], by simp [observe], by simp⟩ }
  · simp [observe]
  · simp [observe]

theorem processNode_move (node : Node) (traversedEdge : Option Edge) :
    OrderMove c (c.processNode node traversedEdge) := by
  unfold processNode
  split
  · exact .refl c
  · split
    · exact ⟨⟨some node, _, _, _, _, rfl⟩, rfl, rfl, ⟨[], rfl, by simp⟩, ⟨[], by simp, by simp⟩,
        ⟨[], by simp, by simp⟩, .inl ⟨rfl, [], rfl, by simp⟩⟩
    · split
      · exact nodeTraversed_move c node none
      · exact .call c (by simp [Frame.isOrderFrame])

theorem executeOrderAction_move (action : Action) {scope : ActionScope}
    (order : scope ≠ .instant) (stopDriving : Bool) :
    OrderMove c (c.executeOrderAction action scope stopDriving) := by
  unfold executeOrderAction
  split
  · exact .crash c
  · exact ⟨.refl _, rfl, rfl, ⟨[_], rfl, by simpa using order⟩,
      ⟨_, rfl, by simpa [Observation.isOrderMove] using order⟩,
      ⟨[], by simp [observe, call], by simp⟩,
      .inl ⟨rfl, [.adapter], rfl, by simp⟩⟩

theorem finishEdgeAction_move (edge : Edge) (action : Action) (actions : List Action) :
    OrderMove c (c.finishEdgeAction edge action actions) := by
  unfold finishEdgeAction
  split
  · exact .call c (by simp [Frame.isOrderFrame])
  · split
    · exact .crash c
    · exact ⟨.refl _, rfl, rfl, ⟨[], rfl, by simp⟩, ⟨_, rfl, by simp [Observation.isOrderMove]⟩,
        ⟨[], by simp [observe, call], by simp⟩,
        .inl ⟨rfl, [.adapter, _], rfl, by simp [Frame.isOrderFrame]⟩⟩

theorem nodeActionEnded_move (node : Node) (action : Action) :
    OrderMove c (c.nodeActionEnded node action) := by
  unfold nodeActionEnded
  split
  · exact processNodeActions_move c node _
  · exact .call c (by simp [Frame.isOrderFrame])
  · exact processEdge_move c node
  · exact .refl c

theorem edgeActionEnded_move (edge : Edge) (action : Action) :
    OrderMove c (c.edgeActionEnded edge action) := by
  unfold edgeActionEnded
  split
  · exact processEdgeActions_move c edge _
  · exact .call c (by simp [Frame.isOrderFrame])
  · exact traverseEdge_move c edge
  · exact .refl c

/-- Proceeding with a frame of an order. -/
theorem resume_order_move {frame : Frame} (order : frame.isOrderFrame) :
    OrderMove c (c.resume frame) := by
  cases frame with
  | finishEdgeActions edge actions =>
      cases actions with
      | nil => exact .refl c
      | cons action actions => exact finishEdgeAction_move c edge action actions
  | nodeTraversed node traversedEdge => exact nodeTraversed_move c node traversedEdge
  | processNodeAction node action stopDriving =>
      exact executeOrderAction_move c action (by simp) stopDriving
  | processEdgeAction edge action stopDriving =>
      exact executeOrderAction_move c action (by simp) stopDriving
  | _ => simp [Frame.isOrderFrame] at order

end Config
end Vda5050
