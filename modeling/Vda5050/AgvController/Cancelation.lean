import Vda5050.AgvController.InstantStates
import Vda5050.Library.Monitor

/-!
# Cancelation of orders

A cancelation is entered, stops the vehicle once all actions of the order have
ended, and is reported as finished when the vehicle has stopped. Only then the
next one may be entered.
-/

set_option autoImplicit false

namespace Vda5050

open AgvController

/-! ## The protocol of a cancelation -/

inductive CancelationPhase where
  | inactive
  | entered (context : ActionContext)
  | stopping (context : ActionContext)
  | finishing (context : ActionContext)
  deriving DecidableEq, Repr

namespace CancelationPhase

/-- What may be observed in a phase. -/
def permits : CancelationPhase → Observation → Prop
  | .finishing context, observation => observation = .actionStatus context .finished
  | .inactive, .cancelOrder _ hasActiveOrder hasCancelingOrder =>
      hasActiveOrder ∧ !hasCancelingOrder
  | .entered context, .stopTraverse call => call.cancelOrderContext = some context
  | .stopping context, .stopped call cancelOrderContext =>
      call.cancelOrderContext = some context ∧ cancelOrderContext = some context
  | _, .cancelOrder .. | _, .stopTraverse _ | _, .stopped .. => False
  | _, _ => True

def next : CancelationPhase → Observation → CancelationPhase
  | _, .cancelOrder context _ _ => .entered context
  | .entered context, .stopTraverse _ => .stopping context
  | .stopping context, .stopped .. => .finishing context
  | .finishing _, .actionStatus .. => .inactive
  | phase, _ => phase

/-- A cancelation is entered for an active order only. -/
private theorem active_of_permits {phase : CancelationPhase} {context : ActionContext}
    {hasActiveOrder hasCancelingOrder : Bool}
    (permitted : phase.permits (.cancelOrder context hasActiveOrder hasCancelingOrder)) :
    hasActiveOrder ∧ !hasCancelingOrder := by
  cases phase <;> simp_all [permits]

end CancelationPhase

/-- The protocol of consecutive cancelations. -/
def cancelation : Library.Monitor Observation CancelationPhase where
  initial := .inactive
  permits := CancelationPhase.permits
  next := CancelationPhase.next

/-- Observations that do not concern cancelations. -/
def Observation.isOffCancelation : Observation → Bool
  | .cancelOrder .. | .stopTraverse _ | .stopped .. => false
  | _ => true

private theorem cancelation_stays {phase : CancelationPhase} {observation : Observation}
    (off : observation.isOffCancelation) (running : ∀ context, phase ≠ .finishing context) :
    cancelation.Stays phase observation := by
  cases phase with
  | finishing context => exact absurd rfl (running context)
  | inactive | entered | stopping =>
      cases observation <;>
        simp_all [Library.Monitor.Stays, cancelation, CancelationPhase.permits,
          CancelationPhase.next, Observation.isOffCancelation]

/-! ## Undisturbed runs -/

/-- An action of the current order other than the given one has not ended. -/
def AgvController.hasOtherOpenAction (agv : AgvController) (action : Action) : Bool :=
  agv.currentOrder.any fun order =>
    ((order.nodes.takeWhile (·.released)).flatMap (·.actions) ++
      (order.edges.takeWhile (·.released)).flatMap (·.actions)).any fun other =>
        other.actionId ≠ action.actionId && !agv.isActionEnded other

/-- The turn of a `cancelOrder` action comes while an order is active and none
is being canceled, no instant action is dispatched twice, and the last open
action of an order does not end while the vehicle is being stopped. -/
def CancelationUndisturbed (c : Config) : Event → Prop
  | .proceed =>
      (∀ action ∈ c.nextInstantAction, action.actionType = "cancelOrder" →
        c.agv.hasActiveOrder ∧ !c.agv.hasCancelingOrder) ∧ DispatchedOnce c .proceed
  | .updateActionStatus context change =>
      context.scope ≠ .instant → change.actionStatus.isEnded → c.stopping ≠ [] →
        c.agv.hasOtherOpenAction context.action
  | _ => True

instance (c : Config) (event : Event) : Decidable (CancelationUndisturbed c event) :=
  match event with
  | .proceed =>
      inferInstanceAs (Decidable ((∀ action ∈ c.nextInstantAction,
        action.actionType = "cancelOrder" → c.agv.hasActiveOrder ∧ !c.agv.hasCancelingOrder) ∧
          DispatchedOnce c .proceed))
  | .updateActionStatus context change =>
      inferInstanceAs (Decidable (context.scope ≠ .instant → change.actionStatus.isEnded →
        c.stopping ≠ [] → c.agv.hasOtherOpenAction context.action))
  | .order .. | .invalidOrder .. | .instantActions .. | .invalidInstantActions .. | .edgeTraversed _
  | .stopped _ | .drivingToNextNode _ | .updatePartialState .. | .updateErrors .. | .publishTimer
  | .published _ | .connection _ => isTrue trivial

theorem CancelationUndisturbed.dispatchedOnce {c : Config} {event : Event}
    (undisturbed : CancelationUndisturbed c event) : DispatchedOnce c event := by
  cases event with
  | proceed => exact undisturbed.2
  | _ => trivial

/-! ## States of a cancelation -/

/-- The loop of `_cancelOrder` has found no action to be canceled so far. -/
def Frame.isScan : Frame → Bool
  | .cancelOrderActions _ false => true
  | _ => false

/-- An instant action is dispatched next. -/
def Frame.isDispatch : Frame → Bool
  | .processInstantActions i stopIndex _ => i < stopIndex
  | .processInstantAction .. => true
  | _ => false

/-- Some order action has not ended. -/
def Config.hasOpenOrderAction (c : Config) : Prop :=
  ∃ state ∈ c.agv.currentState.actionStates, state.actionId ∈ c.orderIds ∧
    state.actionStatus.isEnded = false

/-- How the phase of a cancelation shows in the controller. -/
inductive Canceling (c : Config) : CancelationPhase → Prop where
  | inactive (none : c.agv.cancelOrderContext = none) (stopping : c.stopping = [])
      (scanned : ∀ frame ∈ c.stack, !frame.isScan) : Canceling c .inactive
  | scanning {context : ActionContext} {states : List ActionState} {rest : List Frame}
      (active : c.agv.cancelOrderContext = some context) (stopping : c.stopping = [])
      (stack : c.stack = .cancelOrderActions states false :: rest)
      (scanned : ∀ frame ∈ rest, !frame.isScan)
      (remaining : ∀ state ∈ c.agv.currentState.actionStates, state.actionId ∈ c.orderIds →
        state.actionStatus.isEnded = false → state ∈ states)
      (current : states ⊆ c.agv.currentState.actionStates) : Canceling c (.entered context)
  | waiting {context : ActionContext} (active : c.agv.cancelOrderContext = some context)
      (stopping : c.stopping = []) (scanned : ∀ frame ∈ c.stack, !frame.isScan)
      (hasOpen : c.hasOpenOrderAction) : Canceling c (.entered context)
  | stopping {context : ActionContext} (active : c.agv.cancelOrderContext = some context)
      (stopping : c.stopping = [⟨some context⟩]) (scanned : ∀ frame ∈ c.stack, !frame.isScan) :
      Canceling c (.stopping context)

private theorem Canceling.not_finishing {c : Config} {phase : CancelationPhase}
    (canceling : Canceling c phase) (context : ActionContext) : phase ≠ .finishing context := by
  cases canceling <;> simp

/-- Cancelations follow the protocol in every state reached. -/
def CancelationInvariant (c : Config) : Prop :=
  cancelation.Accepts c.log ∧
    (c.crashed ∧ c.stack = [] ∨ Canceling c (cancelation.after c.log))

/-! ## Steps that do not concern cancelations -/

/-- The stack below a callback of the adapter. -/
private theorem Config.quiet_of_adapterMayCall {c : Config} (mayCall : c.adapterMayCall) :
    ∀ frame ∈ c.stack.head?, !frame.isScan := by
  unfold adapterMayCall at mayCall
  intro frame top
  split at mayCall
  · next empty => simp [empty] at top
  · next stack =>
    obtain rfl : Frame.adapter = frame := by simpa [stack] using top
    rfl
  · simp at mayCall

structure KeepsCancelation (c next : Config) : Prop where
  context : next.agv.cancelOrderContext = c.agv.cancelOrderContext
  stopping : next.stopping = c.stopping
  log : ∃ observations, next.log = c.log ++ observations ∧
    ∀ observation ∈ observations, observation.isOffCancelation
  stack : (∃ frames, next.stack = frames ++ c.stack ∧ ∀ frame ∈ frames, !frame.isScan) ∨
    next.crashed ∧ next.stack = []
  states : c.agv.hasCancelingOrder → ∀ state ∈ c.agv.currentState.actionStates,
    state.actionId ∈ c.orderIds → state ∈ next.agv.currentState.actionStates

private theorem Observation.isOffCancelation_of_isOrderMove {observation : Observation}
    (order : observation.isOrderMove) : observation.isOffCancelation := by
  cases observation <;> simp_all [Observation.isOrderMove, Observation.isOffCancelation]

theorem orderIds_append {c next : Config} {observations : List Observation}
    (log : next.log = c.log ++ observations) : c.orderIds ⊆ next.orderIds := by
  intro id member
  simp only [Config.orderIds, log, acceptedOrderActions_append, actionIds, List.map_append]
  exact List.mem_append_left _ member

namespace KeepsCancelation

variable {c middle next : Config}

theorem refl (c : Config) : KeepsCancelation c c where
  context := rfl
  stopping := rfl
  log := ⟨[], by simp, by simp⟩
  stack := .inl ⟨[], rfl, by simp⟩
  states := fun _ _ member _ => member

/-- Calls are left to be made last. -/
theorem trans (first : KeepsCancelation c middle) (same : middle.stack = c.stack)
    (second : KeepsCancelation middle next) : KeepsCancelation c next := by
  obtain ⟨observations, log, off⟩ := first.log
  obtain ⟨observations', log', off'⟩ := second.log
  refine ⟨second.context.trans first.context, second.stopping.trans first.stopping,
    ⟨observations ++ observations', by simp [log, log'], ?_⟩, same ▸ second.stack, ?_⟩
  · intro observation member
    rcases List.mem_append.mp member with member | member
    · exact off observation member
    · exact off' observation member
  · intro canceling state member own
    refine second.states ?_ state (first.states canceling state member own)
      (orderIds_append log own)
    rw [hasCancelingOrder, first.context]
    exact canceling

/-- Calls that are made later on. -/
private theorem of_call {frames : List Frame} (quiet : ∀ frame ∈ frames, !frame.isScan)
    (kept : KeepsCancelation (c.call frames) next) : KeepsCancelation c next := by
  refine { kept with stack := kept.stack.imp_left ?_ }
  rintro ⟨frames', stack, quiet'⟩
  refine ⟨frames' ++ frames, by simp [stack, Config.call], fun frame member => ?_⟩
  rcases List.mem_append.mp member with member | member
  · exact quiet' frame member
  · exact quiet frame member

theorem of_move (move : OrderMove c next) : KeepsCancelation c next := by
  obtain ⟨_, _, _, _, _, agv⟩ := move.agv
  obtain ⟨observations, log, order⟩ := move.log
  refine ⟨by rw [agv], move.stopping, ⟨observations, log, fun observation member => ?_⟩, ?_, ?_⟩
  · exact Observation.isOffCancelation_of_isOrderMove (order observation member)
  · rcases move.stack with ⟨-, frames, stack, order⟩ | crashed
    · refine .inl ⟨frames, stack, fun frame member => ?_⟩
      rcases order frame member with rfl | order
      · rfl
      · cases frame <;> simp_all [Frame.isOrderFrame, Frame.isScan]
    · exact .inr crashed
  · rw [agv]
    exact fun _ _ member _ => member

theorem of_upkeep {linkedState : PartialState} {removed : List String} (valid : c.Provenant)
    (distinct : c.DistinctIds) (upkeep : Upkeep linkedState removed c next) :
    KeepsCancelation c next := by
  obtain ⟨_, _, _, _, agv⟩ := upkeep.agv
  obtain ⟨observations, log, upkeeps⟩ := upkeep.log
  refine ⟨by rw [agv], upkeep.stopping, ⟨observations, log, fun observation member => ?_⟩, ?_, ?_⟩
  · have kept := upkeeps observation member
    cases observation <;> simp_all [Observation.isUpkeep, Observation.isOffCancelation]
  · rcases upkeep.stack with ⟨-, stack⟩ | crashed
    · exact .inl ⟨[], stack, by simp⟩
    · exact .inr crashed
  · rw [upkeep.actionStates]
    refine fun _ state member own => List.mem_filter.mpr ⟨member, ?_⟩
    -- only states of instant actions are removed
    refine decide_eq_true fun gone => ?_
    obtain ⟨entry, counted, same⟩ := List.mem_map.mp (upkeep.forgotten _ gone).1
    exact distinct.disjoint own (same ▸ Provenance.endedPublishCount valid entry counted)

end KeepsCancelation

/-- A step that does not concern cancelations preserves the phase. -/
theorem CancelationInvariant.keep {c next : Config} (accepted : cancelation.Accepts c.log)
    (canceling : Canceling c (cancelation.after c.log))
    (top : ∀ frame ∈ c.stack.head?, !frame.isScan) (kept : KeepsCancelation c next) :
    CancelationInvariant next := by
  obtain ⟨observations, log, off⟩ := kept.log
  obtain ⟨extended, phase⟩ := accepted.append fun observation member =>
    cancelation_stays (off observation member) canceling.not_finishing
  rw [CancelationInvariant, log, phase]
  refine ⟨extended, ?_⟩
  rcases kept.stack with ⟨frames, stack, quiet⟩ | crashed
  · have scanned : (∀ frame ∈ c.stack, !frame.isScan) → ∀ frame ∈ next.stack, !frame.isScan := by
      rw [stack]
      intro scanned frame member
      rcases List.mem_append.mp member with member | member
      · exact quiet frame member
      · exact scanned frame member
    refine .inr ?_
    generalize cancelation.after c.log = phase at canceling
    cases canceling with
    | inactive none stopping rest =>
        exact .inactive (kept.context.trans none) (kept.stopping.trans stopping) (scanned rest)
    | scanning active stopping stack =>
        simp [stack, Frame.isScan] at top
    | waiting active stopping rest hasOpen =>
        obtain ⟨state, member, own, going⟩ := hasOpen
        refine .waiting (kept.context.trans active) (kept.stopping.trans stopping) (scanned rest)
          ⟨state, kept.states ?_ state member own, orderIds_append log own, going⟩
        rw [hasCancelingOrder, active]
        rfl
    | stopping active stopping rest =>
        exact .stopping (kept.context.trans active) (kept.stopping.trans stopping) (scanned rest)
  · exact .inl crashed

namespace Config

variable (c : Config)

private theorem acceptOrder_keepsCancelation (trajectory : TrajectoryHandler) (order : Order)
    (mode : AcceptMode) (notCanceling : c.agv.hasCancelingOrder = false) :
    KeepsCancelation c (c.acceptOrder trajectory order mode) := by
  have idle : ∀ next : Config, next.agv.cancelOrderContext = c.agv.cancelOrderContext →
      next.stopping = c.stopping → next.stack = c.stack →
      next.log = c.log ++ [.orderAccepted mode order] → KeepsCancelation c next := by
    intro next context stopping stack log
    refine ⟨context, stopping, ⟨_, log, by simp [Observation.isOffCancelation]⟩,
      .inl ⟨[], stack, by simp⟩, ?_⟩
    simp [notCanceling]
  have crashed : KeepsCancelation c (c.observe (.orderAccepted .stitch order)).throwTypeError := by
    refine ⟨rfl, rfl, ⟨_, rfl, by simp [Observation.isOffCancelation]⟩, .inr ⟨rfl, rfl⟩, ?_⟩
    simp [notCanceling]
  have stack : (c.beginOrder trajectory order mode).stack = c.stack := by
    simp [beginOrder, observe]
  have kept := idle (c.beginOrder trajectory order mode) (by simp [beginOrder, observe])
    (by simp [beginOrder, observe]) stack (beginOrder_log c trajectory order mode)
  unfold acceptOrder
  split
  · split
    · exact kept.trans stack (.of_move (.crash _))
    · exact kept.trans stack (.of_move (processNode_move _ _ _))
  · split
    · exact kept.trans stack (.of_move (.crash _))
    · exact kept.trans stack (.of_move (processNode_move _ _ _))
  · split
    · exact crashed
    · next currentOrder current =>
      split
      · exact crashed
      · next baseEnd found =>
        have stack : (c.stitchOrder trajectory currentOrder baseEnd order).stack = c.stack := by
          simp [stitchOrder, observe, replaceNode]
        have kept := idle (c.stitchOrder trajectory currentOrder baseEnd order)
          (by simp [stitchOrder, observe, replaceNode]) (by simp [stitchOrder, observe, replaceNode])
          stack (stitchOrder_log c trajectory currentOrder baseEnd order)
        simp only
        split
        · exact kept.trans stack (.of_move (processEdge_move _ _))
        · exact kept

theorem processOrder_keepsCancelation (valid : c.Provenant) (distinct : c.DistinctIds)
    (order : Order) (adapter : AdapterAnswers) :
    KeepsCancelation c (c.processOrder order adapter) := by
  by_cases accepts : ∃ mode,
      c.agv.decideOrder adapter (allocateNodes c.received order) = .accept mode
  · obtain ⟨mode, decided⟩ := accepts
    have received : KeepsCancelation c { c with received := c.received + 1 } :=
      ⟨rfl, rfl, ⟨[], by simp, by simp⟩, .inl ⟨[], rfl, by simp⟩, fun _ _ member _ => member⟩
    unfold processOrder
    simp only [decided]
    exact received.trans rfl
      (acceptOrder_keepsCancelation _ _ _ _ (decideOrder_accept decided).notCanceling)
  · exact .of_upkeep valid distinct
      (processOrder_upkeep c fun mode decided => accepts ⟨mode, decided⟩)

private theorem processInstantActions_keepsCancelation (message : InstantActions)
    (adapter : AdapterAnswers) : KeepsCancelation c (c.processInstantActions message adapter) := by
  obtain ⟨accepted, agv, published, inFlight, observations, same,
    ⟨errors, counts, nextErrorRef, rfl⟩, -, -, kinds⟩ :=
    acceptInstantActions_eq c adapter message.actions
  have accepts : KeepsCancelation c (c.acceptInstantActions adapter message.actions) := by
    rw [same]
    refine ⟨rfl, rfl, ⟨observations, rfl, fun observation member => ?_⟩, .inl ⟨[], rfl, by simp⟩,
      fun _ _ member _ => member⟩
    rcases kinds observation member with ⟨action, rfl⟩ | ⟨action, rfl⟩ <;> rfl
  unfold processInstantActions
  simp only
  split
  · exact ⟨rfl, rfl, ⟨[], by simp [throwTypeError], by simp⟩, .inr ⟨rfl, rfl⟩,
      fun _ _ member _ => member⟩
  split
  · exact accepts
  · refine accepts.trans (by rw [same]) ⟨rfl, rfl, ⟨[], by simp [call], by simp⟩,
      .inl ⟨[_], rfl, by simp [Frame.isScan]⟩, fun _ _ member _ => member⟩

/-- A report of an instant action leaves the states of order actions as they are. -/
private theorem reportActionStatus_keepsCancelation {context : ActionContext}
    {change : ActionStatusChangeInfo} (vehicle : change.linkedState.isVehicleState)
    (unique : (c.agv.currentState.actionStates.map (·.actionId)).Nodup)
    (foreign : context.action.actionId ∉ c.orderIds) :
    KeepsCancelation c (c.reportActionStatus context change) := by
  obtain ⟨currentState, nextErrorRef, agv, states, -⟩ :=
    reportActionStatus_agv c context change vehicle
  refine ⟨by rw [agv], by simp, ⟨_, reportActionStatus_log c context change, ?_⟩,
    .inl ⟨[], by simp, by simp⟩, ?_⟩
  · simp [Observation.isOffCancelation]
  · simp only [agv, states]
    intro _ state member own
    refine (mem_newActionStates_iff unique).mpr (.inr ⟨member, ?_⟩)
    rintro (same : state.actionId = context.action.actionId)
    exact foreign (same ▸ own)

private theorem instantActionEnded_keepsCancelation (action : Action) :
    KeepsCancelation c (c.instantActionEnded action) := by
  obtain ⟨frames, same, kinds⟩ := instantActionEnded_eq c action
  rw [same]
  refine ⟨rfl, rfl, ⟨[], by simp [dequeue, call], by simp⟩,
    .inl ⟨frames, rfl, fun frame member => ?_⟩, fun _ _ member _ => member⟩
  rcases kinds frame member with rfl | ⟨next, rfl⟩ <;> rfl

private theorem updateInstantActionStatus_keepsCancelation {context : ActionContext}
    {change : ActionStatusChangeInfo} (instant : context.scope = .instant)
    (vehicle : change.linkedState.isVehicleState)
    (unique : (c.agv.currentState.actionStates.map (·.actionId)).Nodup)
    (foreign : context.action.actionId ∉ c.orderIds) :
    KeepsCancelation c (c.updateActionStatus context change) := by
  have reported := reportActionStatus_keepsCancelation c vehicle unique foreign
  unfold updateActionStatus
  simp only [instant]
  split
  · exact reported
  · exact reported.trans (by simp) (instantActionEnded_keepsCancelation _ _)

private theorem resumePausedNode_keepsCancelation : KeepsCancelation c c.resumePausedNode := by
  have cleared : KeepsCancelation c
      { c with agv := { c.agv with currentPausedNode := none } } :=
    ⟨rfl, rfl, ⟨[], by simp, by simp⟩, .inl ⟨[], rfl, by simp⟩, fun _ _ member _ => member⟩
  unfold resumePausedNode
  split
  · exact .refl c
  · simp only
    split
    · exact cleared
    · exact cleared.trans rfl (.of_move (processNode_move _ _ _))

theorem edgeTraversed_keepsCancelation (context : TraverseEdgeContext) :
    KeepsCancelation c (c.perform (.edgeTraversed context)) := by
  have traversed : KeepsCancelation c
      ({ c with traversing := c.traversing.erase context }.observe (.edgeTraversed context)) :=
    ⟨rfl, rfl, ⟨_, rfl, by simp [Observation.isOffCancelation]⟩, .inl ⟨[], rfl, by simp⟩,
      fun _ _ member _ => member⟩
  refine traversed.trans rfl ?_
  simp only [perform, updateEdgeTraversed]
  split
  · exact .refl _
  · split
    · exact .of_move (.crash _)
    · exact .of_move (processNode_move _ _ _)

theorem drivingToNextNode_keepsCancelation (nextNode : Node) :
    KeepsCancelation c (c.drivingToNextNode nextNode) := by
  refine ⟨?_, ?_, ⟨[], ?_, by simp⟩, .inl ⟨[], ?_, by simp⟩, ?_⟩ <;>
    simp [drivingToNextNode, State.merge]
  exact fun _ _ member _ => member

/-- Calls that neither scan the actions of an order nor dispatch an instant action. -/
theorem resume_keepsCancelation {frame : Frame} (scanned : !frame.isScan)
    (idle : !frame.isDispatch) : KeepsCancelation c (c.resume frame) := by
  cases frame with
  | adapter => exact .refl c
  | finishEdgeActions | nodeTraversed | processNodeAction | processEdgeAction =>
      exact .of_move (resume_order_move c rfl)
  | cancelOrderActions states hasActionsToBeCanceled =>
      cases hasActionsToBeCanceled with
      | false => simp [Frame.isScan] at scanned
      | true =>
          cases states with
          | nil => exact .refl c
          | cons state states =>
              simp only [resume, cancelOrderAction]
              split
              · split
                · exact .of_move (.crash c)
                · exact ⟨rfl, rfl, ⟨_, rfl, by simp [Observation.isOffCancelation]⟩,
                    .inl ⟨[_, _], rfl, by simp [Frame.isScan]⟩, fun _ _ member _ => member⟩
              · exact ⟨rfl, rfl, ⟨[], by simp [call], by simp⟩,
                  .inl ⟨[_], rfl, by simp [Frame.isScan]⟩, fun _ _ member _ => member⟩
  | processInstantActionChunk afterAction skipInitialHard =>
      have same : ∀ frames : List Frame, (∀ frame ∈ frames, !frame.isScan) →
          KeepsCancelation c (c.call frames) := fun frames quiet =>
        ⟨rfl, rfl, ⟨[], by simp [call], by simp⟩, .inl ⟨frames, rfl, quiet⟩,
          fun _ _ member _ => member⟩
      simp only [resume, processInstantActionChunk]
      split
      · split
        · exact same _ (by simp [Frame.isScan])
        · exact .refl c
      · exact same _ (by simp [Frame.isScan])
  | processInstantActions i stopIndex stopDriving =>
      have done : ¬i < stopIndex := by simpa [Frame.isDispatch] using idle
      simp only [resume, if_neg done]
      exact .refl c
  | processInstantAction action stopDriving => simp [Frame.isDispatch] at idle
  | resumePausedNode => exact resumePausedNode_keepsCancelation c

end Config

/-! ## A cancelation is entered -/

private theorem Config.cancelationStarted_log (c : Config) (context : ActionContext) :
    (c.cancelationStarted context).log =
      c.log ++ [.cancelOrder context c.agv.hasActiveOrder c.agv.hasCancelingOrder] ++
        [.actionStatus context .running] := by
  simp [cancelationStarted, startCancelation, observe]

private theorem Config.cancelationStarted_context (c : Config) (context : ActionContext) :
    (c.cancelationStarted context).agv.cancelOrderContext = some context := by
  obtain ⟨currentState, nextErrorRef, agv, -⟩ := Config.reportActionStatus_agv
    ((c.observe
      (.cancelOrder context c.agv.hasActiveOrder c.agv.hasCancelingOrder)).startCancelation context)
    context { actionStatus := .running } PartialState.isVehicleState_empty
  rw [cancelationStarted, agv]
  rfl

/-- An active order is scanned for actions to be canceled. -/
theorem CancelationInvariant.cancelOrder {c : Config} {context : ActionContext}
    (accepted : cancelation.Accepts c.log) (inactive : cancelation.after c.log = .inactive)
    (stopping : c.stopping = []) (scanned : ∀ frame ∈ c.stack, !frame.isScan)
    (active : c.agv.hasActiveOrder) (notCanceling : !c.agv.hasCancelingOrder) :
    CancelationInvariant (c.cancelOrder context) := by
  rw [Config.cancelOrder_eq]
  have log := Config.cancelationStarted_log c context
  have entered : cancelation.Accepts (c.cancelationStarted context).log ∧
      cancelation.after (c.cancelationStarted context).log = .entered context := by
    rw [log]
    simp only [Library.Monitor.accepts_concat, Library.Monitor.after_concat, inactive]
    exact ⟨⟨⟨accepted, active, notCanceling⟩, trivial⟩, rfl⟩
  refine ⟨entered.1, .inr ?_⟩
  rw [show cancelation.after ((c.cancelationStarted context).call _).log = _ from entered.2]
  refine .scanning (Config.cancelationStarted_context c context) ?_ rfl ?_
    (fun state member _ _ => member) (fun _ member => member)
  · exact (Config.reportActionStatus_stopping _ context _).trans stopping
  · rw [show (c.cancelationStarted context).stack = c.stack from
      Config.reportActionStatus_stack _ context _]
    exact scanned

/-- The vehicle is stopped when no action of the order is open any more. -/
theorem CancelationInvariant.onOrderActionsCanceled {c : Config} {context : ActionContext}
    (accepted : cancelation.Accepts c.log) (entered : cancelation.after c.log = .entered context)
    (active : c.agv.cancelOrderContext = some context) (stopping : c.stopping = [])
    (scanned : ∀ frame ∈ c.stack, !frame.isScan) :
    CancelationInvariant c.onOrderActionsCanceled := by
  have log : c.onOrderActionsCanceled.log = c.log ++ [.stopTraverse ⟨some context⟩] := by
    simp [Config.onOrderActionsCanceled, Config.observe, Config.call, active]
  rw [CancelationInvariant, log, Library.Monitor.accepts_concat, Library.Monitor.after_concat,
    entered]
  refine ⟨⟨accepted, rfl⟩, .inr (.stopping active ?_ ?_)⟩
  · simp [Config.onOrderActionsCanceled, Config.observe, Config.call, active, stopping]
  · simpa [Config.onOrderActionsCanceled, Config.observe, Config.call, Frame.isScan] using scanned

/-- The scan goes on until an open action is found. -/
private theorem CancelationInvariant.scan {c : Config} (consistent : Consistent c)
    (instants : InstantStates c) {context : ActionContext} {states : List ActionState}
    (accepted : cancelation.Accepts c.log) (entered : cancelation.after c.log = .entered context)
    (active : c.agv.cancelOrderContext = some context) (stopping : c.stopping = [])
    (scanned : ∀ frame ∈ c.stack, !frame.isScan)
    (remaining : ∀ state ∈ c.agv.currentState.actionStates, state.actionId ∈ c.orderIds →
      state.actionStatus.isEnded = false → state ∈ states)
    (current : states ⊆ c.agv.currentState.actionStates) :
    CancelationInvariant (c.resume (.cancelOrderActions states false)) := by
  cases states with
  | nil => exact .onOrderActionsCanceled accepted entered active stopping scanned
  | cons state states =>
      obtain ⟨member, rest⟩ := List.cons_subset.mp current
      simp only [Config.resume, Config.cancelOrderAction]
      split
      · next hasOpen =>
        simp only [Bool.and_eq_true, Bool.not_eq_true'] at hasOpen
        have own : state.actionId ∈ c.orderIds := by
          rcases Provenance.actionStates consistent.provenant state member with own | instant
          · exact own
          · have counted := Config.isInstantActionState_iff.mpr
              (instants.counted state member instant)
            simp [counted] at hasOpen
        split
        · exact ⟨accepted, .inl ⟨rfl, rfl⟩⟩
        · next order _ =>
          have log : ((c.observe (.cancelAction (Config.cancelActionContext order
              state.actionId))).call [.adapter, .cancelOrderActions states true]).log =
              c.log ++ [.cancelAction (Config.cancelActionContext order state.actionId)] := rfl
          rw [CancelationInvariant, log, Library.Monitor.accepts_concat,
            Library.Monitor.after_concat, entered]
          refine ⟨⟨accepted, trivial⟩, .inr (.waiting active stopping ?_ ?_)⟩
          · simpa [Config.call, Config.observe, Frame.isScan] using scanned
          · exact ⟨state, member, orderIds_append log own, hasOpen.2⟩
      · next done =>
        refine ⟨accepted, .inr ?_⟩
        rw [show cancelation.after (c.call _).log = _ from entered]
        refine .scanning active stopping rfl scanned (fun other included own going => ?_) rest
        rcases List.mem_cons.mp (remaining other included own going) with rfl | later
        · have order := consistent.provenant.not_isInstantActionState consistent.distinct own
          simp [order, going] at done
        · exact later

/-! ## Reports of order actions -/

private theorem mem_scheduledActions {order : Order} {action : Action}
    (member : action ∈ (order.nodes.takeWhile (·.released)).flatMap (·.actions) ++
      (order.edges.takeWhile (·.released)).flatMap (·.actions)) :
    action ∈ order.releasedActions := by
  refine Order.mem_releasedActions.mpr ?_
  rcases List.mem_append.mp member with member | member
  · obtain ⟨node, scheduled, included⟩ := List.mem_flatMap.mp member
    exact .inl ⟨node, (List.takeWhile_sublist _).subset scheduled,
      List.mem_takeWhile_imp scheduled, included⟩
  · obtain ⟨edge, scheduled, included⟩ := List.mem_flatMap.mp member
    exact .inr ⟨edge, (List.takeWhile_sublist _).subset scheduled,
      List.mem_takeWhile_imp scheduled, included⟩

private theorem areAllOrderActionsCanceled_iff {agv : AgvController} {order : Order} :
    agv.areAllOrderActionsCanceled order ↔
      ∀ action ∈ (order.nodes.takeWhile (·.released)).flatMap (·.actions) ++
        (order.edges.takeWhile (·.released)).flatMap (·.actions), agv.isActionEnded action := by
  simp only [areAllOrderActionsCanceled, Bool.and_eq_true, List.all_eq_true, List.mem_append,
    List.mem_flatMap]
  constructor
  · rintro ⟨nodes, edges⟩ action (⟨node, member, included⟩ | ⟨edge, member, included⟩)
    · exact nodes node member action included
    · exact edges edge member action included
  · intro all
    exact ⟨fun node member action included => all action (.inl ⟨node, member, included⟩),
      fun edge member action included => all action (.inr ⟨edge, member, included⟩)⟩

/-- An action of the current order that has not ended is an open order action. -/
private theorem Consistent.hasOpenOrderAction {c : Config} (consistent : Consistent c)
    {order : Order} (current : c.agv.currentOrder = some order)
    (going : c.agv.areAllOrderActionsCanceled order = false) : c.hasOpenOrderAction := by
  have notAll : ¬∀ action ∈ (order.nodes.takeWhile (·.released)).flatMap (·.actions) ++
      (order.edges.takeWhile (·.released)).flatMap (·.actions), c.agv.isActionEnded action :=
    fun all => by simp [areAllOrderActionsCanceled_iff.mpr all] at going
  simp only [not_forall] at notAll
  obtain ⟨action, scheduled, going⟩ := notAll
  have released := mem_scheduledActions scheduled
  obtain ⟨reported, known, same⟩ := consistent.books.reported order current action released
  have own := (Provenance.currentOrder consistent.provenant order current).releasedActions
    action released
  unfold isActionEnded at going
  split at going
  · next absent =>
    have none := List.find?_eq_none.mp absent reported known
    simp [same] at none
  · next state found =>
    have same : state.actionId = action.actionId := by simpa using List.find?_some found
    exact ⟨state, List.mem_of_find?_eq_some found, same ▸ own, by simpa using going⟩

/-- The end of an action affects no other one. -/
private theorem isActionEnded_of_report {c next : Config} {context : ActionContext}
    {change : ActionStatusChangeInfo} {other : Action}
    (unique : (c.agv.currentState.actionStates.map (·.actionId)).Nodup)
    (states : next.agv.currentState.actionStates =
      Config.newActionStates c.agv.currentState.actionStates (Config.newActionState context change))
    (different : other.actionId ≠ context.action.actionId)
    (ended : next.agv.isActionEnded other) : c.agv.isActionEnded other := by
  unfold isActionEnded at ended
  rw [states] at ended
  split at ended
  · cases ended
  · next state found =>
    have same : state.actionId = other.actionId := by simpa using List.find?_some found
    rcases (mem_newActionStates_iff unique).mp (List.mem_of_find?_eq_some found) with
      rfl | ⟨member, -⟩
    · exact absurd same.symm different
    · unfold isActionEnded
      split
      · next absent =>
        have none := List.find?_eq_none.mp absent state member
        simp [same] at none
      · next original found =>
        have same' : original.actionId = other.actionId := by simpa using List.find?_some found
        have equal := Library.eq_of_key ActionState.actionId unique
          (List.mem_of_find?_eq_some found) member (same'.trans same.symm)
        exact equal ▸ ended

/-- What follows the report of an order action. -/
private theorem Config.updateActionStatus_order (c : Config) {context : ActionContext}
    (order : context.scope ≠ .instant) (change : ActionStatusChangeInfo) :
    change.actionStatus.isEnded = false ∧
        c.updateActionStatus context change = c.reportActionStatus context change ∨
      change.actionStatus.isEnded ∧ (c.reportActionStatus context change).agv.hasCancelingOrder ∧
        c.updateActionStatus context change =
          (c.reportActionStatus context change).orderActionCanceled ∨
      change.actionStatus.isEnded ∧
        (c.reportActionStatus context change).agv.hasCancelingOrder = false ∧
        OrderMove (c.reportActionStatus context change) (c.updateActionStatus context change) := by
  unfold updateActionStatus
  simp only
  split
  · next going => exact .inl ⟨by simpa using going, rfl⟩
  · next ended =>
    refine .inr ?_
    have ended : change.actionStatus.isEnded := by simpa using ended
    split
    · next instant => exact absurd instant order
    · split
      · next canceling => exact .inl ⟨ended, canceling, rfl⟩
      · next other => exact .inr ⟨ended, by simpa using other, nodeActionEnded_move _ _ _⟩
    · split
      · next canceling => exact .inl ⟨ended, canceling, rfl⟩
      · next other => exact .inr ⟨ended, by simpa using other, edgeActionEnded_move _ _ _⟩

theorem Config.adapterReports_order (c : Config) {context : ActionContext}
    (order : context.scope ≠ .instant) (change : ActionStatusChangeInfo) :
    c.adapterReports context change =
      Config.updateActionStatus
        { c with
          executing :=
            if change.actionStatus.isEnded then c.executing.erase context else c.executing }
        context change := by
  simp [adapterReports, updateActionStatusCallback, order]

/-- The last open action of an order stops the vehicle when it ends. -/
theorem CancelationInvariant.updateActionStatus {c : Config} {context : ActionContext}
    {change : ActionStatusChangeInfo} (order : context.scope ≠ .instant)
    (own : context.action.actionId ∈ c.orderIds)
    (vehicle : change.linkedState.isVehicleState)
    (unique : (c.agv.currentState.actionStates.map (·.actionId)).Nodup)
    (consistent : Consistent (c.updateActionStatus context change))
    (undisturbed : change.actionStatus.isEnded → c.stopping ≠ [] →
      c.agv.hasOtherOpenAction context.action)
    (accepted : cancelation.Accepts c.log) (canceling : Canceling c (cancelation.after c.log))
    (top : ∀ frame ∈ c.stack.head?, !frame.isScan) :
    CancelationInvariant (c.updateActionStatus context change) := by
  obtain ⟨currentState, nextErrorRef, agv, states, -⟩ :=
    Config.reportActionStatus_agv c context change vehicle
  have log := Config.reportActionStatus_log c context change
  have stack := Config.reportActionStatus_stack c context change
  have stopping := Config.reportActionStatus_stopping c context change
  have outcome := Config.updateActionStatus_order c order change
  generalize c.reportActionStatus context change = reported at agv log stack stopping outcome
  have statesEq : reported.agv.currentState.actionStates = Config.newActionStates
      c.agv.currentState.actionStates (Config.newActionState context change) := by
    simp only [agv, states]
  have active : reported.agv.cancelOrderContext = c.agv.cancelOrderContext := by rw [agv]
  obtain ⟨accepted, phase⟩ : cancelation.Accepts reported.log ∧
      cancelation.after reported.log = cancelation.after c.log := by
    rw [log]
    refine accepted.append fun observation member => ?_
    obtain rfl := List.mem_singleton.mp member
    exact cancelation_stays rfl canceling.not_finishing
  rw [← phase] at canceling
  rw [← stack] at top
  rcases outcome with ⟨going, same⟩ | ⟨ended, isCanceling, same⟩ | ⟨ended, notCanceling, move⟩
  · rw [same]
    refine ⟨accepted, .inr ?_⟩
    generalize cancelation.after reported.log = phase at canceling
    cases canceling with
    | inactive none empty scanned =>
        exact .inactive (active.trans none) (stopping.trans empty) (stack ▸ scanned)
    | scanning _ _ split => simp [stack, split, Frame.isScan] at top
    | waiting current empty scanned =>
        refine .waiting (active.trans current) (stopping.trans empty) (stack ▸ scanned)
          ⟨Config.newActionState context change, ?_, orderIds_append log own, going⟩
        rw [statesEq]
        exact (mem_newActionStates_iff unique).mpr (.inl rfl)
    | stopping current pending scanned =>
        exact .stopping (active.trans current) (stopping.trans pending) (stack ▸ scanned)
  · rw [same] at consistent ⊢
    unfold Config.orderActionCanceled at consistent ⊢
    split
    · exact ⟨accepted, .inl ⟨rfl, rfl⟩⟩
    · next currentOrder current =>
      simp only [current] at consistent
      split
      · next all =>
        generalize after : cancelation.after reported.log = phase at canceling
        cases canceling with
        | inactive none => simp [hasCancelingOrder, active, none] at isCanceling
        | scanning _ _ split => simp [stack, split, Frame.isScan] at top
        | waiting current empty scanned =>
            exact .onOrderActionsCanceled accepted after (active.trans current)
              (stopping.trans empty) (stack ▸ scanned)
        | stopping _ pending =>
            -- another action of the order is open
            obtain ⟨same, found, other, scheduled, going⟩ :
                ∃ same, c.agv.currentOrder = some same ∧
                  ∃ other ∈ (same.nodes.takeWhile (·.released)).flatMap (·.actions) ++
                    (same.edges.takeWhile (·.released)).flatMap (·.actions),
                    other.actionId ≠ context.action.actionId ∧ c.agv.isActionEnded other = false := by
              have hasOther := undisturbed ended (by simp [pending])
              simp only [AgvController.hasOtherOpenAction, Option.any_eq_true, List.any_eq_true]
                at hasOther
              obtain ⟨same, found, other, scheduled, going⟩ := hasOther
              exact ⟨same, found, other, scheduled, by simpa using going⟩
            obtain rfl : same = currentOrder := by
              rw [agv] at current
              exact Option.some.inj (found.symm.trans current)
            have still := isActionEnded_of_report unique statesEq going.1
              (areAllOrderActionsCanceled_iff.mp all other scheduled)
            simp [going.2] at still
      · next notAll =>
        rw [if_neg notAll] at consistent
        have hasOpen := consistent.hasOpenOrderAction current (by simpa using notAll)
        refine ⟨accepted, .inr ?_⟩
        generalize cancelation.after reported.log = phase at canceling
        cases canceling with
        | inactive none => simp [hasCancelingOrder, active, none] at isCanceling
        | scanning _ _ split => simp [stack, split, Frame.isScan] at top
        | waiting current empty scanned =>
            exact .waiting (active.trans current) (stopping.trans empty) (stack ▸ scanned) hasOpen
        | stopping current pending scanned =>
            exact .stopping (active.trans current) (stopping.trans pending) (stack ▸ scanned)
  · refine .keep accepted ?_ top (.of_move move)
    generalize cancelation.after reported.log = phase at canceling
    cases canceling with
    | inactive none empty scanned =>
        exact .inactive (active.trans none) (stopping.trans empty) (stack ▸ scanned)
    | scanning current | waiting current | stopping current =>
        simp [hasCancelingOrder, active, current] at notCanceling

private theorem Canceling.setExecuting {c : Config} {phase : CancelationPhase}
    (canceling : Canceling c phase) (executing : List ActionContext) :
    Canceling { c with executing := executing } phase := by
  cases canceling with
  | inactive none stopping scanned => exact .inactive none stopping scanned
  | scanning active stopping stack scanned remaining current =>
      exact .scanning active stopping stack scanned remaining current
  | waiting active stopping scanned hasOpen => exact .waiting active stopping scanned hasOpen
  | stopping active stopping scanned => exact .stopping active stopping scanned

theorem CancelationInvariant.adapterReports {c : Config} (consistent : Consistent c)
    {context : ActionContext} {change : ActionStatusChangeInfo}
    (environment : Environment c (.updateActionStatus context change))
    (undisturbed : CancelationUndisturbed c (.updateActionStatus context change))
    (accepted : cancelation.Accepts c.log) (canceling : Canceling c (cancelation.after c.log))
    (top : ∀ frame ∈ c.stack.head?, !frame.isScan) :
    CancelationInvariant (c.adapterReports context change) := by
  obtain ⟨⟨held, -, vehicle⟩, -⟩ := id environment
  have source := Provenance.executing consistent.provenant context held
  by_cases instant : context.scope = .instant
  · have foreign : context.action.actionId ∉ c.orderIds := by
      simp only [ActionContext.From, instant] at source
      exact fun own => consistent.distinct.disjoint own source
    have report : ∀ frames : List Frame, (∀ frame ∈ frames, !frame.isScan) →
        CancelationInvariant ((Config.call
          { c with
            executing :=
              if change.actionStatus.isEnded then c.executing.erase context else c.executing }
          frames).updateActionStatus context change) := by
      intro frames quiet
      have kept := Config.updateInstantActionStatus_keepsCancelation (Config.call
          { c with
            executing :=
              if change.actionStatus.isEnded then c.executing.erase context else c.executing }
          frames) instant vehicle consistent.books.unique foreign
      exact .keep accepted canceling top { kept.of_call quiet with }
    unfold Config.adapterReports Config.updateActionStatusCallback
    simp only
    split
    · exact report [.resumePausedNode] (by simp [Frame.isScan])
    · exact report [] (by simp)
  · have own : context.action.actionId ∈ c.orderIds := by
      unfold ActionContext.From at source
      split at source
      · next scope => exact absurd scope instant
      · exact source.2
      · exact source.2
    have consistent' := consistent.perform environment
    simp only [Config.perform, Config.adapterReports_order c instant] at consistent'
    rw [Config.adapterReports_order c instant]
    exact .updateActionStatus instant own vehicle consistent.books.unique consistent'
      (undisturbed instant) accepted (canceling.setExecuting _) top

/-! ## The vehicle has stopped -/

/-- The cancelation is finished on behalf of the action it has been entered for. -/
theorem CancelationInvariant.stopped {c : Config} {cancelOrderContext : ActionContext}
    (active : c.agv.cancelOrderContext = some cancelOrderContext)
    (instant : cancelOrderContext.scope = .instant) (accepted : cancelation.Accepts c.log)
    (phase : cancelation.after c.log = .stopping cancelOrderContext) (stopping : c.stopping = [])
    (scanned : ∀ frame ∈ c.stack, !frame.isScan) :
    CancelationInvariant (c.stopped ⟨some cancelOrderContext⟩) := by
  obtain ⟨actions, frames, same, kinds⟩ := Config.updateActionStatus_instant
    (c.canceled ⟨some cancelOrderContext⟩) cancelOrderContext { actionStatus := .finished }
    instant rfl
  obtain ⟨currentState, nextErrorRef, agv, -⟩ := Config.reportActionStatus_agv
    (c.canceled ⟨some cancelOrderContext⟩) cancelOrderContext { actionStatus := .finished }
    PartialState.isVehicleState_empty
  have log := Config.reportActionStatus_log (c.canceled ⟨some cancelOrderContext⟩)
    cancelOrderContext { actionStatus := .finished }
  have stack := Config.reportActionStatus_stack (c.canceled ⟨some cancelOrderContext⟩)
    cancelOrderContext { actionStatus := .finished }
  have empty := Config.reportActionStatus_stopping (c.canceled ⟨some cancelOrderContext⟩)
    cancelOrderContext { actionStatus := .finished }
  rw [Config.stopped_some active, same]
  rw [Config.canceled_log, active] at log
  refine ⟨?_, .inr ?_⟩
  · show cancelation.Accepts (Config.reportActionStatus _ _ _).log
    simp only [log, Library.Monitor.accepts_concat, Library.Monitor.after_concat, phase]
    exact ⟨⟨accepted, rfl, rfl⟩, rfl⟩
  · show Canceling _ (cancelation.after (Config.reportActionStatus _ _ _).log)
    simp only [log, Library.Monitor.after_concat, phase]
    refine .inactive ?_ (empty.trans stopping) ?_
    · show (Config.reportActionStatus _ _ _).agv.cancelOrderContext = none
      simp only [agv, Config.canceled_agv]
    · show ∀ frame ∈ frames ++ (Config.reportActionStatus _ _ _).stack, !frame.isScan
      rw [stack]
      intro frame member
      rcases List.mem_append.mp member with member | member
      · rcases kinds frame member with rfl | ⟨next, rfl⟩ <;> rfl
      · exact scanned frame member

/-! ## Dispatch of instant actions -/

private theorem Canceling.inactive_of_not_canceling {c : Config} {phase : CancelationPhase}
    (canceling : Canceling c phase) (notCanceling : c.agv.hasCancelingOrder = false) :
    phase = .inactive ∧ c.stopping = [] ∧ ∀ frame ∈ c.stack, !frame.isScan := by
  cases canceling with
  | inactive _ stopping scanned => exact ⟨rfl, stopping, scanned⟩
  | scanning active | waiting active | stopping active =>
      simp [hasCancelingOrder, active] at notCanceling

/-- A dispatched action without a state does not affect the active order. -/
private theorem hasActiveOrder_resetEndedPublishCount {c : Config} {action : Action}
    (absent : ∀ state ∈ c.agv.currentState.actionStates, state.actionId ≠ action.actionId) :
    (c.resetEndedPublishCount action).agv.hasActiveOrder = c.agv.hasActiveOrder := by
  have same : ∀ state ∈ c.agv.currentState.actionStates,
      (c.resetEndedPublishCount action).agv.isInstantActionState state =
        c.agv.isInstantActionState state := by
    intro state member
    rw [Bool.eq_iff_iff, Config.isInstantActionState_iff, Config.isInstantActionState_iff]
    simp only [Config.resetEndedPublishCount, mem_keys_setEntry]
    exact ⟨fun either => either.resolve_left (absent state member), .inr⟩
  have states : (c.resetEndedPublishCount action).agv.currentState = c.agv.currentState := rfl
  have open_ : (c.agv.currentState.actionStates.any fun state =>
      !(c.resetEndedPublishCount action).agv.isInstantActionState state &&
        !state.actionStatus.isEnded) =
      c.agv.currentState.actionStates.any fun state =>
        !c.agv.isInstantActionState state && !state.actionStatus.isEnded := by
    rw [Bool.eq_iff_iff, List.any_eq_true, List.any_eq_true]
    exact ⟨fun ⟨state, member, holds⟩ => ⟨state, member, same state member ▸ holds⟩,
      fun ⟨state, member, holds⟩ => ⟨state, member, (same state member).symm ▸ holds⟩⟩
  unfold hasActiveOrder
  rw [states, open_]

theorem CancelationInvariant.processInstantAction {c : Config} {action : Option Action}
    (accepted : cancelation.Accepts c.log) (canceling : Canceling c (cancelation.after c.log))
    (top : ∀ frame ∈ c.stack.head?, !frame.isScan)
    (unique : (c.agv.currentState.actionStates.map (·.actionId)).Nodup)
    (foreign : ∀ next, action = some next → next.actionId ∉ c.orderIds)
    (absent : ∀ next, action = some next → ∀ state ∈ c.agv.currentState.actionStates,
      state.actionId ≠ next.actionId)
    (undisturbed : ∀ next, action = some next → next.actionType = "cancelOrder" →
      c.agv.hasActiveOrder ∧ !c.agv.hasCancelingOrder)
    (stopDriving : Bool) : CancelationInvariant (c.processInstantAction action stopDriving) := by
  unfold Config.processInstantAction
  cases action with
  | none =>
      exact .keep accepted canceling top ⟨rfl, rfl, ⟨_, rfl, by simp [Observation.isOffCancelation]⟩,
        .inr ⟨rfl, rfl⟩, fun _ _ member _ => member⟩
  | some action =>
      have dispatched : KeepsCancelation c
          ((c.observe (.instantActionProcessed (some action))).resetEndedPublishCount action) :=
        ⟨rfl, rfl, ⟨_, rfl, by simp [Observation.isOffCancelation]⟩, .inl ⟨[], rfl, by simp⟩,
          fun _ _ member _ => member⟩
      have own : action.actionId ∉
          ((c.observe (.instantActionProcessed (some action))).resetEndedPublishCount
            action).orderIds := by
        simpa [Config.orderIds, Config.observe, Config.resetEndedPublishCount, acceptedOrderActions]
          using foreign action rfl
      simp only
      split
      · exact .keep accepted canceling top ⟨rfl, rfl,
          ⟨_, rfl, by simp [Observation.isOffCancelation]⟩, .inr ⟨rfl, rfl⟩,
          fun _ _ member _ => member⟩
      split
      · exact .keep accepted canceling top (dispatched.trans rfl
          (Config.updateInstantActionStatus_keepsCancelation _ rfl PartialState.isVehicleState_empty
            unique own))
      · split
        · next cancels =>
          obtain ⟨active, notCanceling⟩ := undisturbed action rfl cancels
          obtain ⟨inactive, stopping, scanned⟩ :=
            canceling.inactive_of_not_canceling (by simpa using notCanceling)
          have stays : ∀ observation ∈ [Observation.instantActionProcessed (some action)],
              cancelation.Stays (cancelation.after c.log) observation := by
            simpa using cancelation_stays rfl canceling.not_finishing
          obtain ⟨accepted, phase⟩ := accepted.append stays
          refine CancelationInvariant.cancelOrder accepted (phase.trans inactive) stopping scanned
            ?_ notCanceling
          exact (hasActiveOrder_resetEndedPublishCount
            (c := c.observe (.instantActionProcessed (some action))) (absent action rfl)).trans active
        · exact .keep accepted canceling top (dispatched.trans rfl
            ⟨rfl, rfl, ⟨_, rfl, by simp [Observation.isOffCancelation]⟩,
              .inl ⟨[.adapter], rfl, by simp [Frame.isScan]⟩, fun _ _ member _ => member⟩)

/-! ## Undisturbed runs -/

private theorem Canceling.scanned_tail {c : Config} {phase : CancelationPhase} {frame : Frame}
    {rest : List Frame} (canceling : Canceling c phase) (stack : c.stack = frame :: rest) :
    ∀ other ∈ rest, !other.isScan := by
  intro other member
  cases canceling with
  | inactive _ _ scanned | waiting _ _ scanned | stopping _ _ scanned =>
      exact scanned other (stack ▸ List.mem_cons_of_mem _ member)
  | scanning _ _ split scanned =>
      obtain ⟨-, rfl⟩ := List.cons.inj (stack.symm.trans split)
      exact scanned other member

/-- Nothing changes for a cancelation when another call is made. -/
theorem Canceling.pop {c : Config} {phase : CancelationPhase} {frame : Frame} {rest : List Frame}
    (canceling : Canceling c phase) (stack : c.stack = frame :: rest) (other : !frame.isScan) :
    Canceling { c with stack := rest } phase := by
  have scanned := canceling.scanned_tail stack
  cases canceling with
  | inactive none stopping => exact .inactive none stopping scanned
  | scanning _ _ split =>
      obtain ⟨rfl, -⟩ := List.cons.inj (stack.symm.trans split)
      simp [Frame.isScan] at other
  | waiting active stopping _ hasOpen => exact .waiting active stopping scanned hasOpen
  | stopping active stopping => exact .stopping active stopping scanned

theorem Canceling.call {c : Config} {phase : CancelationPhase} (canceling : Canceling c phase)
    (top : ∀ frame ∈ c.stack.head?, !frame.isScan) {frames : List Frame}
    (quiet : ∀ frame ∈ frames, !frame.isScan) : Canceling (c.call frames) phase := by
  have scanned : (∀ frame ∈ c.stack, !frame.isScan) →
      ∀ frame ∈ (c.call frames).stack, !frame.isScan := by
    intro scanned frame member
    rcases List.mem_append.mp member with member | member
    · exact quiet frame member
    · exact scanned frame member
  cases canceling with
  | inactive none stopping rest => exact .inactive none stopping (scanned rest)
  | scanning _ _ split => simp [split, Frame.isScan] at top
  | waiting active stopping rest hasOpen => exact .waiting active stopping (scanned rest) hasOpen
  | stopping active stopping rest => exact .stopping active stopping (scanned rest)

/-- A step that makes the topmost pending call. -/
theorem CancelationInvariant.proceed {c : Config} (consistent : Consistent c)
    (instants : InstantStates c) (undisturbed : CancelationUndisturbed c .proceed)
    (accepted : cancelation.Accepts c.log) (canceling : Canceling c (cancelation.after c.log)) :
    CancelationInvariant c.proceed := by
  obtain ⟨entering, once⟩ := undisturbed
  unfold Config.proceed
  split
  · exact ⟨accepted, .inr canceling⟩
  · next frame rest stack =>
    have consistent' : Consistent { c with stack := rest } :=
      { provenant := .of_quiet (.of_log rfl)
          { consistent.provenant with
            stack := fun other member =>
              Provenance.stack consistent.provenant other (stack ▸ List.mem_cons_of_mem _ member) }
        distinct := consistent.distinct
        books := consistent.books.keep (.of_log rfl) ⟨rfl, rfl, id, fun _ member _ => member⟩ }
    have instants' : InstantStates { c with stack := rest } :=
      instants.release rfl rfl rfl rfl (.refl _)
    by_cases scan : frame.isScan
    · -- the scan is going on
      obtain ⟨states, rfl⟩ : ∃ states, frame = .cancelOrderActions states false := by
        cases frame with
        | cancelOrderActions states hasActionsToBeCanceled =>
            cases hasActionsToBeCanceled with
            | false => exact ⟨states, rfl⟩
            | true => simp [Frame.isScan] at scan
        | _ => simp [Frame.isScan] at scan
      generalize after : cancelation.after c.log = phase at canceling
      cases canceling with
      | inactive _ _ scanned | waiting _ _ scanned | stopping _ _ scanned =>
          have clash := scanned _ (stack ▸ List.mem_cons_self)
          cases clash
      | scanning active stopping split scanned remaining current =>
          obtain ⟨same, rfl⟩ := List.cons.inj (stack.symm.trans split)
          obtain ⟨rfl, -⟩ := Frame.cancelOrderActions.inj same
          exact .scan consistent' instants' accepted after active stopping scanned remaining current
    · have quiet : !frame.isScan := by simpa using scan
      have scanned := canceling.scanned_tail stack
      have top : ∀ other ∈ rest.head?, !other.isScan :=
        fun other first => scanned other (List.mem_of_head? first)
      have popped := canceling.pop stack quiet
      have accepted' : cancelation.Accepts (Config.log { c with stack := rest }) := accepted
      by_cases idle : !frame.isDispatch
      · exact .keep accepted' popped top (Config.resume_keepsCancelation _ quiet idle)
      · have dispatches : ∀ (called : List Frame) (action : Option Action) (stopDriving : Bool),
            (∀ other ∈ called, !other.isScan) → c.nextInstantAction = action →
            (∀ next, action = some next → next.actionId ∈ c.instantIds) →
            CancelationInvariant ((Config.call { c with stack := rest } called).processInstantAction
              action stopDriving) := by
          intro called action stopDriving below dispatched known
          have fresh : ∀ next, action = some next →
              next.actionId ∉ dispatchedInstantActions c.log := by
            rintro next rfl
            exact once next dispatched
          refine .processInstantAction (c := Config.call { c with stack := rest } called) accepted
            (popped.call top below) ?_ consistent.books.unique ?_ ?_ ?_ stopDriving
          · intro frame first
            rcases List.mem_append.mp (List.mem_of_head? first) with member | member
            · exact below frame member
            · exact scanned frame member
          · exact fun next found own => consistent.distinct.disjoint own (known next found)
          · intro next found state member same
            refine fresh next found (same ▸ instants.dispatched state member ?_)
            exact same ▸ known next found
          · rintro next rfl cancels
            exact entering next dispatched cancels
        cases frame with
        | processInstantActions i stopIndex stopDriving =>
            have going : i < stopIndex := by simpa [Frame.isDispatch] using idle
            simp only [Config.resume, if_pos going]
            refine dispatches [_] _ stopDriving (by simp [Frame.isScan]) ?_ ?_
            · simp only [Config.nextInstantAction, stack, if_pos going]
            · exact fun next found => Provenance.instantActions consistent.provenant next
                (List.mem_of_getElem? found)
        | processInstantAction action stopDriving =>
            refine dispatches [] action stopDriving (by simp) ?_ ?_
            · simp only [Config.nextInstantAction, stack]
            · rintro next rfl
              exact Provenance.stack consistent.provenant
                (.processInstantAction (some next) stopDriving) (by simp [stack])
        | _ => simp [Frame.isDispatch] at idle

/-- Every step of an undisturbed run follows the protocol. -/
theorem CancelationInvariant.perform {c : Config} (consistent : Consistent c)
    (instants : InstantStates c) {event : Event} (environment : Environment c event)
    (undisturbed : CancelationUndisturbed c event) (enabled : c.enabled event)
    (invariant : CancelationInvariant c) : CancelationInvariant (c.perform event) := by
  obtain ⟨accepted, ⟨crashed, empty⟩ | canceling⟩ := invariant
  · cases event <;>
      simp [Config.enabled, Config.isIdle, Config.adapterMayCall, crashed, empty] at enabled
  · by_cases proceeds : event = .proceed
    · subst proceeds
      exact .proceed consistent instants undisturbed accepted canceling
    · have top : ∀ frame ∈ c.stack.head?, !frame.isScan := by
        have mayCall : c.adapterMayCall := by
          cases event <;> simp_all [Config.enabled, Config.isIdle, Config.adapterMayCall]
        exact Config.quiet_of_adapterMayCall mayCall
      by_cases upkeep : event.isUpkeep
      · obtain ⟨removed, kept⟩ := Config.perform_upkeep c upkeep environment.1
        exact .keep accepted canceling top (.of_upkeep consistent.provenant consistent.distinct kept)
      · cases event with
        | proceed => exact absurd rfl proceeds
        | order order adapter =>
            exact .keep accepted canceling top (Config.processOrder_keepsCancelation c
              consistent.provenant consistent.distinct order adapter)
        | instantActions message adapter =>
            exact .keep accepted canceling top
              (Config.processInstantActions_keepsCancelation c message adapter)
        | updateActionStatus context change =>
            exact .adapterReports consistent environment undisturbed accepted canceling top
        | edgeTraversed context =>
            exact .keep accepted canceling top (Config.edgeTraversed_keepsCancelation c context)
        | stopped context =>
            have pending : context ∈ c.stopping := environment.1
            generalize after : cancelation.after c.log = phase at canceling
            cases canceling with
            | inactive _ empty | scanning _ empty | waiting _ empty => simp [empty] at pending
            | @stopping cancelOrderContext active stopping scanned =>
                obtain rfl : context = ⟨some cancelOrderContext⟩ := by
                  simpa [stopping] using pending
                obtain ⟨instant, -⟩ :=
                  Provenance.cancelOrderContext consistent.provenant cancelOrderContext active
                have called : Config.stopping
                    { c with stopping := c.stopping.erase ⟨some cancelOrderContext⟩ } = [] := by
                  simp [stopping]
                exact CancelationInvariant.stopped active instant accepted after called scanned
        | drivingToNextNode nextNode =>
            exact .keep accepted canceling top (Config.drivingToNextNode_keepsCancelation c nextNode)
        | _ => exact absurd rfl upkeep

theorem CancelationInvariant.initial (limit : Nat) :
    CancelationInvariant (Config.initial limit) := by
  refine ⟨Library.Monitor.accepts_nil, .inr (.inactive rfl rfl ?_)⟩
  simp [Config.initial]

/-- What is expected of cancelations in every state reached. -/
structure CancelOrderProtocol (c : Config) : Prop where
  follows : cancelation.Accepts c.log
  finished : c.crashed = false → ∀ context, cancelation.after c.log ≠ .finishing context
  entered : c.crashed = false → ∀ context, cancelation.after c.log = .entered context →
    c.agv.cancelOrderContext = some context ∧ c.stopping = []
  stopping : c.crashed = false → ∀ context, cancelation.after c.log = .stopping context →
    c.agv.cancelOrderContext = some context ∧ c.stopping = [⟨some context⟩]
  live : c.isIdle → ∀ context, cancelation.after c.log = .entered context →
    ∃ other ∈ c.executing, other.scope ≠ .instant

/-- Each cancelation stops the vehicle once, and its end is reported once, on
behalf of the action it has been entered for. -/
theorem cancelOrderProtocol_of_undisturbed {limit : Nat} {events : List Event} {c : Config}
    (run : ControllerRun CancelationUndisturbed limit events c) : CancelOrderProtocol c := by
  obtain ⟨consistent, -, accepted, invariant⟩ := run.invariant
    (fun c => Consistent c ∧ InstantStates c ∧ CancelationInvariant c)
    ⟨.initial limit, .initial limit, .initial limit⟩
    fun ⟨consistent, instants, invariant⟩ environment undisturbed enabled =>
      ⟨consistent.perform environment,
        instants.perform consistent environment undisturbed.dispatchedOnce,
        invariant.perform consistent instants environment undisturbed enabled⟩
  have canceling : c.crashed = false → Canceling c (cancelation.after c.log) := by
    intro running
    rcases invariant with ⟨crashed, -⟩ | canceling
    · simp [running] at crashed
    · exact canceling
  refine ⟨accepted, fun running => (canceling running).not_finishing, ?_, ?_, ?_⟩
  · intro running context after
    rw [after] at canceling
    cases canceling running with
    | scanning active stopping | waiting active stopping => exact ⟨active, stopping⟩
  · intro running context after
    rw [after] at canceling
    cases canceling running with
    | stopping active stopping => exact ⟨active, stopping⟩
  · intro idle context after
    rw [after] at canceling
    simp only [Config.isIdle, Bool.and_eq_true, Bool.not_eq_true', List.isEmpty_iff] at idle
    cases canceling idle.1 with
    | scanning _ _ stack => simp [stack] at idle
    | waiting active _ _ hasOpen =>
        -- an open action of an order that is being canceled has been handed over
        obtain ⟨state, member, own, going⟩ := hasOpen
        have status := consistent.books.canceled (by simp [hasCancelingOrder, active]) state member own
        rcases consistent.books.handedOver state member own with ended | waiting | executing
        · simp [going] at ended
        · exact absurd waiting status
        · obtain ⟨other, held, order, -⟩ := executing
          exact ⟨other, held, order⟩

/-- Cancel the active order. -/
def cancelOrderAction (actionId : String) : Action where
  actionId := actionId
  actionType := "cancelOrder"
  blockingType := .hard

/-- The events up to the call of `stopTraverse` on behalf of a `cancelOrder`
action of the given message, while the vehicle drives along an edge. -/
def eventsToStopTraverse (actions : List Action) : List Event :=
  [.order (driveOrder "order" [] [] []) {}, .proceed, .instantActions ⟨actions⟩ {}, .proceed,
    .proceed, .proceed, .proceed]

def cancelContext (actionId : String) : ActionContext where
  action := cancelOrderAction actionId
  scope := .instant
  stopDriving := some true
  activeOrderId := some "order"

theorem cancelOrderProtocol_of_single :
    ∃ c, ControllerRun CancelationUndisturbed 5
      (eventsToStopTraverse [cancelOrderAction "cancel"] ++
        [.stopped ⟨some (cancelContext "cancel")⟩]) c ∧ CancelOrderProtocol c ∧
      c.agv.hasActiveOrder = false := by
  obtain ⟨c, run, passed⟩ := ControllerRun.exists_of_execute CancelationUndisturbed 5
    (eventsToStopTraverse [cancelOrderAction "cancel"] ++
      [.stopped ⟨some (cancelContext "cancel")⟩])
    (fun c => c.agv.hasActiveOrder = false) (by decide)
  exact ⟨c, run, cancelOrderProtocol_of_undisturbed run, by simpa using passed⟩

/-- The second `cancelOrder` of a message is checked before the first one is
executed, and executed when there is no active order any more. -/
theorem not_cancelOrderProtocol_of_two :
    ∃ c, ControllerRun (fun _ _ => True) 5
      (eventsToStopTraverse [cancelOrderAction "cancel1", cancelOrderAction "cancel2"] ++
        [.stopped ⟨some (cancelContext "cancel1")⟩, .proceed, .proceed]) c ∧
        ¬CancelOrderProtocol c := by
  let context := { cancelContext "cancel2" with activeOrderId := none }
  obtain ⟨c, run, passed⟩ := ControllerRun.exists_of_execute (fun _ _ => True) 5
    (eventsToStopTraverse [cancelOrderAction "cancel1", cancelOrderAction "cancel2"] ++
      [.stopped ⟨some (cancelContext "cancel1")⟩, .proceed, .proceed])
    (fun c => .cancelOrder context false false ∈ c.log) (by decide)
  refine ⟨c, run, fun protocol => ?_⟩
  have member : .cancelOrder context false false ∈ c.log := by simpa using passed
  obtain ⟨past, future, split⟩ := List.append_of_mem member
  have active := CancelationPhase.active_of_permits (protocol.follows past _ future split)
  simp at active

end Vda5050
