import Vda5050.AgvController.InstantQueue
import Vda5050.AgvController.Upkeep

/-!
# Dispatch of instant actions over whole runs

Every step of a run in which no instant action ends within a loop over the
queue preserves the books of the queue. Instant actions are then dispatched in
order, and the queue never rests as long as nothing is running.
-/

set_option autoImplicit false

namespace Vda5050

open AgvController

/-! ## Steps that leave the queue alone -/

theorem KeepsQueue.of_upkeep {linkedState : PartialState} {removed : List String}
    {c next : Config} (upkeep : Upkeep linkedState removed c next) : KeepsQueue c next := by
  obtain ⟨_, _, _, _, agv⟩ := upkeep.agv
  obtain ⟨observations, log, upkeeps⟩ := upkeep.log
  refine ⟨by rw [agv], ⟨observations, log, fun observation member => ?_⟩, ?_, ?_, ?_, ?_⟩
  · have kept := upkeeps observation member
    cases observation <;> simp_all [Observation.isUpkeep, Observation.isOffQueue]
  · simp [Config.heldInstantActions, agv, upkeep.executing]
  · rw [upkeep.actionStates]
    exact fun state member _ => List.mem_of_mem_filter member
  · rcases upkeep.stack with ⟨-, stack⟩ | crashed
    · exact .inl ⟨[], stack, by simp⟩
    · exact .inr crashed
  · intro id _ known
    by_cases gone : id ∈ removed
    · refine .inr ⟨(upkeep.forgotten id gone).2, ?_⟩
      rw [upkeep.actionStates]
      rintro state member rfl
      simpa [gone] using (List.mem_filter.mp member).2
    · exact .inl (upkeep.remaining id known gone)

namespace Config

variable (c : Config)

private theorem orderActionCanceled_keepsQueue : KeepsQueue c c.orderActionCanceled := by
  unfold orderActionCanceled
  split
  · exact .of_move (.crash c)
  · split
    · exact ⟨rfl, ⟨_, rfl, by simp [Observation.isOffQueue]⟩, rfl, fun _ member _ => member,
        .inl ⟨[.adapter], rfl, by simp [Frame.isInert]⟩, fun _ _ => .inl⟩
    · exact .refl c

/-- A status report of an order action. -/
private theorem updateActionStatus_keepsQueue {context : ActionContext}
    {change : ActionStatusChangeInfo} (order : context.scope ≠ .instant)
    (vehicle : change.linkedState.isVehicleState)
    (foreign : context.action.actionId ∉ c.instantIds) :
    KeepsQueue c (c.updateActionStatus context change) := by
  obtain ⟨currentState, nextErrorRef, agv, states, -⟩ :=
    reportActionStatus_agv c context change vehicle
  have reported : KeepsQueue c (c.reportActionStatus context change) := by
    refine ⟨by rw [agv], ⟨_, reportActionStatus_log c context change, ?_⟩, ?_, ?_,
      .inl ⟨[], by simp, by simp⟩, ?_⟩
    · simp [Observation.isOffQueue, order]
    · simp [heldInstantActions, agv]
    · simp only [agv, states]
      intro state member instant
      rcases mem_newActionStates member with rfl | member
      · exact absurd instant foreign
      · exact member
    · simp only [endedPublishCountKeys, agv]
      exact fun _ _ => .inl
  have stack := reportActionStatus_stack c context change
  unfold updateActionStatus
  simp only
  split
  · exact reported
  · split
    · next instant => exact absurd instant order
    · split
      · exact reported.trans stack (orderActionCanceled_keepsQueue _)
      · exact reported.trans stack (.of_move (nodeActionEnded_move _ _ _))
    · split
      · exact reported.trans stack (orderActionCanceled_keepsQueue _)
      · exact reported.trans stack (.of_move (edgeActionEnded_move _ _ _))

private theorem resumePausedNode_keepsQueue : KeepsQueue c c.resumePausedNode := by
  have cleared : KeepsQueue c { c with agv := { c.agv with currentPausedNode := none } } :=
    ⟨rfl, ⟨[], by simp, by simp⟩, rfl, fun _ member _ => member, .inl ⟨[], rfl, by simp⟩,
      fun _ _ => .inl⟩
  unfold resumePausedNode
  split
  · exact .refl c
  · simp only
    split
    · exact cleared
    · exact cleared.trans rfl (.of_move (processNode_move _ _ _))

theorem edgeTraversed_keepsQueue (context : TraverseEdgeContext) :
    KeepsQueue c (c.perform (.edgeTraversed context)) := by
  have traversed : KeepsQueue c
      ({ c with traversing := c.traversing.erase context }.observe (.edgeTraversed context)) :=
    ⟨rfl, ⟨_, rfl, by simp [Observation.isOffQueue]⟩, rfl, fun _ member _ => member,
      .inl ⟨[], rfl, by simp⟩, fun _ _ => .inl⟩
  refine traversed.trans rfl ?_
  simp only [perform, updateEdgeTraversed]
  split
  · exact .refl _
  · split
    · exact .of_move (.crash _)
    · exact .of_move (processNode_move _ _ _)

/-- Without a cancelation the callback `stopped` fails. -/
theorem stopped_keepsQueue (context : StopTraverseContext)
    (absent : c.agv.cancelOrderContext = none) : KeepsQueue c (c.stopped context) := by
  unfold stopped
  simp only [absent]
  refine ⟨rfl, ⟨_, rfl, by simp [Observation.isOffQueue]⟩, ?_, fun _ member _ => member,
    .inr ⟨rfl, rfl⟩, fun _ _ => .inl⟩
  simp [heldInstantActions, throwTypeError, updateState, mergeState, observe, absent]

theorem drivingToNextNode_keepsQueue (nextNode : Node) :
    KeepsQueue c (c.drivingToNextNode nextNode) := by
  refine ⟨?_, ⟨[], ?_, by simp⟩, ?_, ?_, .inl ⟨[], ?_, by simp⟩, ?_⟩ <;>
    simp [drivingToNextNode, heldInstantActions, endedPublishCountKeys, State.merge]
  · exact fun _ member _ => member
  · exact fun _ _ count known => .inl ⟨count, known⟩

/-! ## Acceptance of orders -/

/-- The contexts of instant actions refer to no node. -/
private theorem instant_replaceNode (updated : Node) (executing : List ActionContext) :
    ((executing.map (ActionContext.replaceNode updated)).filter (·.scope = .instant)).map
        (·.action) =
      (executing.filter (·.scope = .instant)).map (·.action) := by
  induction executing with
  | nil => rfl
  | cons context executing ih =>
      cases scope : context.scope <;>
        simp [ActionContext.replaceNode, scope, ih]

private theorem beginOrder_keepsQueue (trajectory : TrajectoryHandler) (order : Order)
    {mode : AcceptMode} (notStitch : mode ≠ .stitch)
    (foreign : ∀ id ∈ actionIds order.releasedActions, id ∉ c.instantIds) :
    KeepsQueue c (c.beginOrder trajectory order mode) := by
  refine ⟨by simp [beginOrder, observe], ⟨_, beginOrder_log c trajectory order mode, ?_⟩,
    by simp [beginOrder, observe, heldInstantActions], ?_, .inl ⟨[], ?_, by simp⟩, ?_⟩
  · simp [Observation.isOffQueue]
  · rw [beginOrder_actionStates c trajectory order notStitch]
    intro state member instant
    rcases List.mem_append.mp member with member | member
    · exact List.mem_of_mem_filter member
    · have new : state.actionId ∈ actionIds order.releasedActions :=
        actionIds_getActionStates order ▸ List.mem_map_of_mem member
      exact absurd instant (foreign _ new)
  · simp [beginOrder, observe]
  · simp only [endedPublishCountKeys, beginOrder, updateState_agv]
    exact fun _ _ => .inl

private theorem stitchOrder_keepsQueue (trajectory : TrajectoryHandler) (currentOrder : Order)
    (baseEnd : Node) (order : Order)
    (foreign : ∀ id ∈ actionIds order.releasedActions, id ∉ c.instantIds) :
    KeepsQueue c (c.stitchOrder trajectory currentOrder baseEnd order) := by
  refine ⟨by simp [stitchOrder, observe, replaceNode],
    ⟨_, stitchOrder_log c trajectory currentOrder baseEnd order, ?_⟩, ?_, ?_,
    .inl ⟨[], ?_, by simp⟩, ?_⟩
  · simp [Observation.isOffQueue]
  · have same := instant_replaceNode (stitchedBaseEnd baseEnd order) c.executing
    simp [stitchOrder, observe, replaceNode, heldInstantActions] at same ⊢
    exact same
  · rw [stitchOrder_actionStates]
    intro state member instant
    rcases List.mem_append.mp member with member | member
    · exact member
    · have new : state.actionId ∈ actionIds order.releasedActions :=
        actionIds_getActionStates order ▸ List.mem_map_of_mem member
      exact absurd instant (foreign _ new)
  · simp [stitchOrder, observe, replaceNode]
  · simp only [endedPublishCountKeys, stitchOrder, updateState_agv]
    exact fun _ _ => .inl

private theorem acceptOrder_keepsQueue (trajectory : TrajectoryHandler) (order : Order)
    (mode : AcceptMode) (foreign : ∀ id ∈ actionIds order.releasedActions, id ∉ c.instantIds) :
    KeepsQueue c (c.acceptOrder trajectory order mode) := by
  have stack : ∀ mode, (c.beginOrder trajectory order mode).stack = c.stack := by
    simp [beginOrder, observe]
  have crashed : KeepsQueue c (c.observe (.orderAccepted .stitch order)).throwTypeError :=
    ⟨rfl, ⟨_, rfl, by simp [Observation.isOffQueue]⟩, rfl, fun _ member _ => member,
      .inr ⟨rfl, rfl⟩, fun _ _ => .inl⟩
  unfold acceptOrder
  split
  · have kept := beginOrder_keepsQueue c trajectory order (by simp : AcceptMode.new ≠ .stitch) foreign
    split
    · exact kept.trans (stack _) (.of_move (.crash _))
    · exact kept.trans (stack _) (.of_move (processNode_move _ _ _))
  · have kept :=
      beginOrder_keepsQueue c trajectory order (by simp : AcceptMode.update ≠ .stitch) foreign
    split
    · exact kept.trans (stack _) (.of_move (.crash _))
    · exact kept.trans (stack _) (.of_move (processNode_move _ _ _))
  · split
    · exact crashed
    · next currentOrder current =>
      split
      · exact crashed
      · next baseEnd found =>
        have kept := stitchOrder_keepsQueue c trajectory currentOrder baseEnd order foreign
        have stack : (c.stitchOrder trajectory currentOrder baseEnd order).stack = c.stack := by
          simp [stitchOrder, observe, replaceNode]
        simp only
        split
        · exact kept.trans stack (.of_move (processEdge_move _ _))
        · exact kept

theorem processOrder_keepsQueue {order : Order} {adapter : AdapterAnswers}
    (fresh : DistinctActionIds c (.order order adapter)) :
    KeepsQueue c (c.processOrder order adapter) := by
  by_cases accepts : ∃ mode,
      c.agv.decideOrder adapter (allocateNodes c.received order) = .accept mode
  · obtain ⟨mode, decided⟩ := accepts
    have received : KeepsQueue c { c with received := c.received + 1 } :=
      ⟨rfl, ⟨[], by simp, by simp⟩, rfl, fun _ member _ => member, .inl ⟨[], rfl, by simp⟩,
        fun _ _ => .inl⟩
    unfold processOrder
    simp only [decided]
    refine received.trans rfl (acceptOrder_keepsQueue _ _ _ _ ?_)
    rw [releasedActions_allocateNodes]
    exact fun id member => ((fresh ⟨mode, decided⟩).2 id member).2
  · exact .of_upkeep (processOrder_upkeep c fun mode decided => accepts ⟨mode, decided⟩)

theorem resume_keepsQueue {frame : Frame} (inert : frame.isInert) :
    KeepsQueue c (c.resume frame) := by
  cases frame with
  | adapter => exact .refl c
  | finishEdgeActions | nodeTraversed | processNodeAction | processEdgeAction =>
      exact .of_move (resume_order_move c rfl)
  | cancelOrderActions states hasActionsToBeCanceled =>
      cases states with
      | nil =>
          cases hasActionsToBeCanceled with
          | true => exact .refl c
          | false =>
              exact ⟨rfl, ⟨_, rfl, by simp [Observation.isOffQueue]⟩, rfl,
                fun _ member _ => member, .inl ⟨[.adapter], rfl, by simp [Frame.isInert]⟩,
                fun _ _ => .inl⟩
      | cons state states =>
          simp only [resume, cancelOrderAction]
          split
          · split
            · exact .of_move (.crash c)
            · exact ⟨rfl, ⟨_, rfl, by simp [Observation.isOffQueue]⟩, rfl,
                fun _ member _ => member, .inl ⟨[_, _], rfl, by simp [Frame.isInert]⟩,
                fun _ _ => .inl⟩
          · exact ⟨rfl, ⟨[], by simp [call], by simp⟩, rfl, fun _ member _ => member,
              .inl ⟨[_], rfl, by simp [Frame.isInert]⟩, fun _ _ => .inl⟩
  | processInstantActions i stopIndex stopDriving =>
      have done : ¬i < stopIndex := by simpa [Frame.isInert] using inert
      simp only [resume, if_neg done]
      exact .refl c
  | resumePausedNode => exact resumePausedNode_keepsQueue c
  | processInstantActionChunk | processInstantAction => simp [Frame.isInert] at inert

end Config

/-! ## The controller proceeds -/

private theorem Frame.not_isLoop_of_isInert {frame : Frame} (inert : frame.isInert) :
    !frame.isLoop := by
  cases frame <;> simp_all [Frame.isInert, Frame.isLoop]

/-- A loop over the queue dispatches the next action of its chunk. -/
theorem QueueInvariant.loop {c : Config} {processed : List Action} {rest : List Frame}
    {stopIndex : Nat} {stopDriving : Bool} {action : Action} {chunk behind : List Action}
    (book : QueueBook c processed (action :: (chunk ++ behind))) (distinct : c.DistinctIds)
    (stack : c.stack =
      .processInstantActions ((runningActions c.log processed).length + 1) stopIndex stopDriving ::
        rest)
    (inert : ∀ frame ∈ rest, frame.isInert)
    (stop : stopIndex = (runningActions c.log processed).length + (chunk.length + 1))
    (chunk_parallel : ∀ other ∈ action :: chunk, isHard other = false)
    (barrier : ∀ other ∈ behind.head?, isHard other)
    (parallel : ∀ other ∈ runningActions c.log processed, isHard other = false)
    (undisturbed : (runningActions c.log processed).length + 1 < stopIndex →
      action.actionType ≠ "stateRequest") :
    QueueInvariant (c.processInstantAction (some action) stopDriving) := by
  refine .processInstantAction book distinct (fun hard => ?_) parallel ?_ ?_ stopDriving
  · simp [chunk_parallel action List.mem_cons_self] at hard
  · rw [stack]
    cases chunk with
    | nil =>
        refine .resting ?_ ?_
        · simpa [Frame.isInert, stop] using inert
        · cases behind with
          | nil => exact .inl rfl
          | cons next behind =>
              exact .inr ⟨by simp, .inl ⟨next, behind, rfl, barrier next rfl⟩⟩
    | cons next chunk =>
        refine .loop (List.nil_append _).symm (by simpa using inert) (by simp) ?_
          (List.cons_ne_nil next chunk) rfl ?_ barrier ?_
        · simp only [stop, List.length_cons]
          omega
        · exact fun other member => chunk_parallel other (List.mem_cons_of_mem _ member)
        · intro other member
          rcases List.mem_append.mp member with member | member
          · exact parallel other member
          · obtain rfl := List.mem_singleton.mp member
            exact chunk_parallel other List.mem_cons_self
  · intro stateRequest frame member
    rw [stack] at member
    rcases List.mem_cons.mp member with rfl | member
    · have last : ¬(runningActions c.log processed).length + 1 < stopIndex :=
        fun more => undisturbed more stateRequest
      simpa [Frame.isLoop] using last
    · exact Frame.not_isLoop_of_isInert (inert frame member)

/-- The topmost pending call is made. -/
theorem QueueInvariant.proceed {c : Config} (consistent : Consistent c)
    (undisturbed : QueueUndisturbed c .proceed) (enabled : c.enabled .proceed)
    (invariant : QueueInvariant c) : QueueInvariant c.proceed := by
  obtain ⟨valid, distinct, -⟩ := consistent
  rcases invariant with ⟨-, empty, -⟩ | ⟨processed, waiting, book, phase⟩
  · simp [Config.enabled, empty] at enabled
  · unfold Config.proceed
    split
    · next empty => simp [Config.enabled, empty] at enabled
    · next frame rest stack =>
      have popped : QueueBook { c with stack := rest } processed waiting := { book with }
      rw [stack] at phase
      cases phase with
      | restart top inert idle =>
          obtain ⟨rfl, rfl⟩ := List.cons.inj top
          refine .processInstantActionChunk popped inert none false ?_ ?_ ?_
          all_goals simp [idle, startIndex]
      | @extend last before _ top inert running_eq parallel =>
          obtain ⟨rfl, rfl⟩ := List.cons.inj top
          refine .processInstantActionChunk popped inert (some last) true ?_ parallel ?_
          · have unique := book.nodup_running distinct
            have queue := book.queue
            rw [running_eq, List.append_assoc, List.singleton_append] at unique queue
            have front := (List.nodup_append.mp (List.map_append ▸ unique)).2.2
            show startIndex c.agv.currentInstantActions (some last) =
              (runningActions c.log processed).length
            rw [queue, running_eq, startIndex_split, List.length_append, List.length_singleton]
            intro other member
            exact front _ (List.mem_map_of_mem member) _ (by simp)
          · show true = !(runningActions c.log processed).isEmpty
            simp [running_eq]
      | @hard action stopDriving behind _ top inert idle next hard =>
          obtain ⟨rfl, rfl⟩ := List.cons.inj top
          subst next
          refine .processInstantAction popped distinct (fun _ => idle) ?_ ?_ ?_ stopDriving
          · simp [idle]
          · rw [idle]
            exact .resting inert (.inr ⟨by simp, .inr ⟨action, rfl, hard⟩⟩)
          · exact fun _ frame member => Frame.not_isLoop_of_isInert (inert frame member)
      | settled settled =>
          by_cases inert : frame.isInert
          · exact .keep popped (settled.pop inert) (Config.resume_keepsQueue _ inert)
          · cases settled with
            | resting inerts => exact absurd (inerts frame List.mem_cons_self) inert
            | @loop before after i stopIndex stopDriving chunk behind split inerts index stop
                pending waiting_eq chunk_parallel barrier parallel =>
                cases before with
                | cons top before =>
                    obtain ⟨rfl, -⟩ := List.cons.inj split
                    exact absurd (inerts frame (by simp)) inert
                | nil =>
                    obtain ⟨rfl, rfl⟩ := List.cons.inj split
                    obtain ⟨action, chunk, rfl⟩ := List.exists_cons_of_ne_nil pending
                    subst waiting_eq index
                    have going : (runningActions c.log processed).length < stopIndex := by
                      simp only [stop, List.length_cons]
                      omega
                    have found : c.agv.currentInstantActions[
                        (runningActions c.log processed).length]? = some action := by
                      rw [book.queue, List.getElem?_append_right (Nat.le_refl _)]
                      simp
                    simp only [QueueUndisturbed, stack, found, Option.all_some,
                      decide_eq_true_eq] at undisturbed
                    simp only [Config.resume, if_pos going, found]
                    exact .loop { popped with } distinct rfl (by simpa using inerts) stop
                      chunk_parallel barrier parallel undisturbed

/-! ## Reports of the adapter -/

/-- The stack below a callback of the adapter. -/
private theorem Config.inert_of_adapterMayCall {c : Config} (mayCall : c.adapterMayCall) :
    ∀ frame ∈ c.stack.head?, frame.isInert := by
  unfold adapterMayCall at mayCall
  intro frame top
  split at mayCall
  · next empty => simp [empty] at top
  · next stack =>
    obtain rfl : Frame.adapter = frame := by simpa [stack] using top
    rfl
  · simp at mayCall

/-- A context whose action has ended is not held any more, and no other one of
the same actionId is. -/
theorem Config.heldInstantActions_erase {c : Config}
    (unique : (actionIds c.heldInstantActions).Nodup) {context : ActionContext}
    (held : context ∈ c.executing) (instant : context.scope = .instant) :
    let erased := { c with executing := c.executing.erase context }
    erased.heldInstantActions.Sublist c.heldInstantActions ∧
      ∀ other ∈ erased.heldInstantActions, other.actionId ≠ context.action.actionId := by
  intro erased
  obtain ⟨before, after, -, split, rest⟩ := List.exists_erase_eq held
  have whole : c.heldInstantActions =
      (before.filter (·.scope = .instant)).map (·.action) ++ context.action ::
        ((after.filter (·.scope = .instant)).map (·.action) ++
          (c.agv.cancelOrderContext.map (·.action)).toList) := by
    simp [Config.heldInstantActions, split, instant]
  have remaining : erased.heldInstantActions =
      (before.filter (·.scope = .instant)).map (·.action) ++
        ((after.filter (·.scope = .instant)).map (·.action) ++
          (c.agv.cancelOrderContext.map (·.action)).toList) := by
    simp [erased, Config.heldInstantActions, rest]
  refine ⟨whole ▸ remaining ▸ (List.sublist_cons_self _ _).append_left _, ?_⟩
  rw [whole, actionIds, List.map_append, List.map_cons, List.nodup_middle] at unique
  obtain ⟨fresh, -⟩ := List.nodup_cons.mp unique
  intro other member same
  rw [remaining] at member
  refine fresh ?_
  rw [← same, ← List.map_append]
  exact List.mem_map_of_mem member

/-- A report of an order action leaves the queue alone. -/
theorem Config.adapterReports_keepsQueue (c : Config) (consistent : Consistent c)
    {context : ActionContext} {change : ActionStatusChangeInfo}
    (contract : AdapterContract c (.updateActionStatus context change))
    (order : context.scope ≠ .instant) : KeepsQueue c (c.adapterReports context change) := by
  obtain ⟨valid, distinct, -⟩ := consistent
  obtain ⟨held, -, vehicle⟩ := contract
  have foreign : context.action.actionId ∉ c.instantIds := by
    have own := Provenance.executing valid context held
    unfold ActionContext.From at own
    split at own
    · next scope => exact absurd scope order
    · exact distinct.disjoint own.2
    · exact distinct.disjoint own.2
  have kept : KeepsQueue c
      { c with
        executing :=
          if change.actionStatus.isEnded then c.executing.erase context else c.executing } := by
    refine ⟨rfl, ⟨[], by simp, by simp⟩, ?_, fun _ member _ => member, .inl ⟨[], rfl, by simp⟩,
      fun _ _ => .inl⟩
    unfold Config.heldInstantActions
    congr 2
    split
    · rw [← List.erase_filter, List.erase_of_not_mem]
      simp [order]
    · rfl
  unfold Config.adapterReports Config.updateActionStatusCallback
  simp only [order, decide_false, Bool.false_and, Bool.false_eq_true, if_false]
  exact kept.trans rfl (Config.updateActionStatus_keepsQueue _ order vehicle foreign)

theorem QueueInvariant.adapterReports {c : Config} (consistent : Consistent c)
    {context : ActionContext} {change : ActionStatusChangeInfo}
    (contract : AdapterContract c (.updateActionStatus context change))
    (undisturbed : QueueUndisturbed c (.updateActionStatus context change))
    {processed waiting : List Action} (book : QueueBook c processed waiting)
    (settled : Settled c.stack (runningActions c.log processed) waiting) :
    QueueInvariant (c.adapterReports context change) := by
  obtain ⟨valid, distinct, books⟩ := consistent
  obtain ⟨held, status, vehicle⟩ := contract
  by_cases instant : context.scope = .instant
  · have member : context.action ∈ runningActions c.log processed := by
      refine book.held (List.mem_append_left _ (List.mem_map_of_mem ?_))
      exact List.mem_filter.mpr ⟨held, by simpa using instant⟩
    cases ended : change.actionStatus.isEnded with
    | false =>
        have same : c.adapterReports context change = c.reportActionStatus context change := by
          have going : change.actionStatus ≠ .finished := by
            rintro finished
            simp [finished, ActionStatus.isEnded] at ended
          simp [Config.adapterReports, Config.updateActionStatusCallback,
            Config.updateActionStatus, ended, going]
        obtain ⟨book', running⟩ := book.report (Config.reportActionStatus_agv c context change vehicle)
          (Config.reportActionStatus_log c context change)
          (Config.reportActionStatus_executing c context change) member status ended
        rw [same]
        refine .inr ⟨processed, waiting, book', ?_⟩
        rw [running, Config.reportActionStatus_stack]
        exact .settled settled
    | true =>
        obtain ⟨inert, resting⟩ := settled.resting_of_not_loop (undisturbed instant ended)
        obtain ⟨sub, notHeld⟩ := Config.heldInstantActions_erase book.unique held instant
        have report : ∀ frames : List Frame, (∀ frame ∈ frames, frame.isInert) → QueueInvariant
            (({ c with executing := c.executing.erase context }.call frames).updateActionStatus
              context change) := by
          intro frames pushed
          have unique := book.unique.sublist (sub.map Action.actionId)
          obtain ⟨erased, running⟩ := book.transfer
            (Config.call { c with executing := c.executing.erase context } frames) rfl []
            (by simp [Config.call]) (by simp) (fun _ member _ => member)
            (fun _ other => book.held (sub.subset other)) unique
          refine .end_action erased distinct (running ▸ member) notHeld instant ended vehicle ?_
            (running ▸ resting)
          intro frame included
          rcases List.mem_append.mp included with included | included
          · exact pushed frame included
          · exact inert frame included
        unfold Config.adapterReports Config.updateActionStatusCallback
        simp only [ended, if_true]
        split
        · exact report [.resumePausedNode] (by simp [Frame.isInert])
        · exact report [] (by simp)
  · exact .keep book settled (Config.adapterReports_keepsQueue c ⟨valid, distinct, books⟩
      ⟨held, status, vehicle⟩ instant)

theorem QueueInvariant.stopped {c : Config} (consistent : Consistent c)
    {context : StopTraverseContext} (undisturbed : QueueUndisturbed c (.stopped context))
    {processed waiting : List Action} (book : QueueBook c processed waiting)
    (settled : Settled c.stack (runningActions c.log processed) waiting) :
    QueueInvariant (c.stopped context) := by
  obtain ⟨valid, distinct, -⟩ := consistent
  cases pending : c.agv.cancelOrderContext with
  | none => exact .keep book settled (Config.stopped_keepsQueue c context pending)
  | some cancelOrderContext =>
      unfold Config.stopped
      simp only [pending]
      obtain ⟨inert, resting⟩ := settled.resting_of_not_loop undisturbed
      obtain ⟨instant, -⟩ := Provenance.cancelOrderContext valid cancelOrderContext pending
      have whole : c.heldInstantActions =
          (c.executing.filter (·.scope = .instant)).map (·.action) ++
            [cancelOrderContext.action] := by
        simp [Config.heldInstantActions, pending]
      have unique := book.unique
      rw [whole, actionIds, List.map_append, List.nodup_append] at unique
      obtain ⟨uniqueExecuting, -, different⟩ := unique
      -- the cancelation is not held any more
      have remaining : (({ c.observe (.stopped context (some cancelOrderContext)) with
            agv := { c.agv with cancelOrderContext := none } }).updateState
          { nodeStates := some [], edgeStates := some [] } false).heldInstantActions =
          (c.executing.filter (·.scope = .instant)).map (·.action) := by
        simp [Config.heldInstantActions, Config.observe]
      obtain ⟨emptied, running⟩ := book.transfer
        (({ c.observe (.stopped context (some cancelOrderContext)) with
            agv := { c.agv with cancelOrderContext := none } }).updateState
          { nodeStates := some [], edgeStates := some [] } false) rfl
        [.stopped context (some cancelOrderContext)] rfl (by simp [Observation.isOffQueue])
        (fun _ member _ => member)
        (by
          rw [remaining]
          exact fun other member => book.held (List.mem_append_left _ member))
        (by
          rw [remaining]
          exact uniqueExecuting)
      refine .end_action emptied (distinct.of_quiet (.of_log_concat _ rfl rfl)) ?_ ?_ instant rfl
        PartialState.isVehicleState_empty inert (running ▸ resting)
      · rw [running]
        exact book.held (whole ▸ List.mem_append_right _ List.mem_cons_self)
      · rw [remaining]
        intro other member same
        exact different _ (List.mem_map_of_mem member) _ (by simp) same

/-! ## Messages -/

/-- Accepted actions wait behind the others. -/
theorem QueueBook.acceptInstantActions {c : Config} {processed waiting : List Action}
    (book : QueueBook c processed waiting) (valid : c.Provenant) (message : InstantActions)
    (adapter : AdapterAnswers) (fresh : DistinctActionIds c (.instantActions message adapter)) :
    ∃ accepted, QueueBook (c.acceptInstantActions adapter message.actions) processed
        (waiting ++ accepted) ∧
      runningActions (c.acceptInstantActions adapter message.actions).log processed =
        runningActions c.log processed ∧
      (c.acceptInstantActions adapter message.actions).stack = c.stack := by
  obtain ⟨accepted, agv, published, inFlight, observations, same,
    ⟨errors, counts, nextErrorRef, rfl⟩, sub, queued, kinds⟩ :=
    Config.acceptInstantActions_eq c adapter message.actions
  rw [same]
  have ended : endedInstantActions observations = [] := by
    refine List.filterMap_eq_nil_iff.mpr fun observation member => ?_
    rcases kinds observation member with ⟨action, rfl⟩ | ⟨action, rfl⟩ <;> rfl
  have dispatched : processedInstantActions observations = [] := by
    refine List.filterMap_eq_nil_iff.mpr fun observation member => ?_
    rcases kinds observation member with ⟨action, rfl⟩ | ⟨action, rfl⟩ <;> rfl
  have running : runningActions (c.log ++ observations) processed =
      runningActions c.log processed := by
    simp [runningActions, ended]
  have ordered : Library.Always DispatchedInOrder (c.log ++ observations) := by
    refine book.ordered.append fun past observation member => ?_
    rcases kinds observation member with ⟨action, rfl⟩ | ⟨action, rfl⟩ <;> rintro _ ⟨⟩
  refine ⟨accepted, ⟨?_, ?_, ordered, ?_, ?_, ?_, book.unique, ?_, ?_, ?_⟩, running, rfl⟩
  · rw [acceptedInstantActions_append, queued, book.accepted, List.append_assoc]
  · rw [processedInstantActions_append, dispatched, List.append_nil, book.dispatched]
  · rw [running, ← List.append_assoc, ← book.queue]
  · rw [endedInstantActions_append, ended, List.append_nil]
    exact book.ended
  · rw [running]
    exact book.held
  · rw [running]
    exact book.alone
  · rw [running]
    exact book.open_states
  · intro state member instant
    refine book.not_waiting state member ?_
    rw [Config.instantIds, acceptedInstantActions_append, queued, actionIds,
      List.map_append] at instant
    rcases List.mem_append.mp instant with known | new
    · exact known
    · -- the actionIds of the message are new
      obtain ⟨notOrder, notInstant⟩ := fresh.2 _ ((sub.map _).subset new)
      rcases Provenance.actionStates valid state member with order | instant
      · exact absurd order notOrder
      · exact absurd instant notInstant

theorem QueueInvariant.processInstantActions {c : Config} (valid : c.Provenant)
    {processed waiting : List Action} (book : QueueBook c processed waiting)
    (idle : c.stack = []) (resting : Resting (runningActions c.log processed) waiting)
    {message : InstantActions} {adapter : AdapterAnswers}
    (fresh : DistinctActionIds c (.instantActions message adapter)) :
    QueueInvariant (c.processInstantActions message adapter) := by
  obtain ⟨accepted, book', running, stack⟩ :=
    book.acceptInstantActions valid message adapter fresh
  rw [idle] at stack
  unfold Config.processInstantActions
  simp only
  split
  · exact .inl ⟨rfl, rfl, book.ordered⟩
  split
  · next pending =>
    obtain ⟨action, member, hard⟩ := List.any_eq_true.mp pending
    rw [book.queue] at member
    refine .inr ⟨processed, waiting ++ accepted, book', ?_⟩
    rw [stack, running]
    refine .settled (.resting (by simp) (.inr ?_))
    rcases resting with rfl | ⟨occupied, next⟩
    · -- the pending HARD action is running, and it does so alone
      have running := book.alone action (by simpa using member) hard
      exact ⟨by simp [running], .inr ⟨action, running, hard⟩⟩
    · refine ⟨occupied, next.imp_left ?_⟩
      rintro ⟨first, behind, rfl, hard⟩
      exact ⟨first, behind ++ accepted, rfl, hard⟩
  · next noPending =>
    have parallel : ∀ action ∈ c.agv.currentInstantActions, isHard action = false := by
      simpa using noPending
    rw [book.queue] at parallel noPending
    obtain rfl : waiting = [] := by
      rcases resting with empty | ⟨-, ⟨action, behind, rfl, hard⟩ | ⟨action, alone, hard⟩⟩
      · exact empty
      · simp [parallel action (by simp)] at hard
      · simp [parallel action (by simp [alone])] at hard
    have queue := book.queue
    rw [List.append_nil] at queue parallel
    refine .inr ⟨processed, [] ++ accepted, { book' with }, ?_⟩
    rw [show ∀ frames, ((c.acceptInstantActions adapter message.actions).call frames).stack =
      frames from fun frames => by simp [Config.call, stack]]
    rw [show ∀ frames, ((c.acceptInstantActions adapter message.actions).call frames).log =
      (c.acceptInstantActions adapter message.actions).log from fun frames => rfl, running, queue]
    rcases List.eq_nil_or_concat (runningActions c.log processed) with empty | ⟨before, last, split⟩
    · rw [empty]
      exact .restart rfl (by simp) rfl
    · rw [List.concat_eq_append] at split
      have last : (runningActions c.log processed).getLast? = some last := by simp [split]
      rw [last]
      exact .extend rfl (by simp) split parallel

/-! ## Undisturbed runs -/

/-- Every step of an undisturbed run preserves the books of the queue. -/
theorem QueueInvariant.perform {c : Config} (consistent : Consistent c) {event : Event}
    (environment : Environment c event) (undisturbed : QueueUndisturbed c event)
    (enabled : c.enabled event) (invariant : QueueInvariant c) :
    QueueInvariant (c.perform event) := by
  by_cases proceeds : event = .proceed
  · subst proceeds
    exact .proceed consistent undisturbed enabled invariant
  · have top : ∀ frame ∈ c.stack.head?, frame.isInert := by
      have mayCall : c.adapterMayCall := by
        cases event <;> simp_all [Config.enabled, Config.isIdle, Config.adapterMayCall]
      exact Config.inert_of_adapterMayCall mayCall
    have running : c.crashed = false := by
      cases event <;>
        simp_all [Config.enabled, Config.isIdle, Config.adapterMayCall]
    rcases invariant with ⟨crashed, -⟩ | ⟨processed, waiting, book, phase⟩
    · simp [running] at crashed
    · have settled := phase.settled_of_inert top
      by_cases upkeep : event.isUpkeep
      · obtain ⟨removed, kept⟩ := Config.perform_upkeep c upkeep environment.1
        exact .keep book settled (.of_upkeep kept)
      · cases event with
        | proceed => exact absurd rfl proceeds
        | order order adapter =>
            exact .keep book settled (Config.processOrder_keepsQueue c environment.2)
        | instantActions message adapter =>
            have idle : c.stack = [] := by
              simpa [Config.enabled, Config.isIdle, running] using enabled
            rw [idle] at settled
            exact .processInstantActions consistent.provenant book idle
              (settled.resting_of_not_loop (by simp)).2 environment.2
        | updateActionStatus context change =>
            exact .adapterReports consistent environment.1 undisturbed book settled
        | edgeTraversed context =>
            exact .keep book settled (Config.edgeTraversed_keepsQueue c context)
        | stopped context =>
            have called : Consistent { c with stopping := c.stopping.erase context } :=
              { provenant := .of_quiet (.of_log rfl) { consistent.provenant with }
                distinct := consistent.distinct
                books := consistent.books.keep (.of_log rfl)
                  ⟨rfl, rfl, id, fun _ member _ => member⟩ }
            have book' : QueueBook { c with stopping := c.stopping.erase context } processed
              waiting := { book with }
            exact QueueInvariant.stopped called undisturbed book' settled
        | drivingToNextNode nextNode =>
            exact .keep book settled (Config.drivingToNextNode_keepsQueue c nextNode)
        | _ => exact absurd rfl upkeep

theorem QueueInvariant.initial (limit : Nat) : QueueInvariant (Config.initial limit) := by
  refine .inr ⟨[], [], ?_, .settled (.resting (by simp [Config.initial]) (.inl rfl))⟩
  constructor <;> simp [Config.initial, AgvController.initial, Config.heldInstantActions,
    runningActions, acceptedInstantActions, processedInstantActions, endedInstantActions, actionIds]

theorem QueueInvariant.of_run {limit : Nat} {events : List Event} {c : Config}
    (run : ControllerRun QueueUndisturbed limit events c) : QueueInvariant c := by
  have invariants := run.invariant (fun c => Consistent c ∧ QueueInvariant c)
    ⟨.initial limit, .initial limit⟩ fun invariants environment undisturbed enabled =>
      ⟨invariants.1.perform environment,
        invariants.2.perform invariants.1 environment undisturbed enabled⟩
  exact invariants.2

/-- What is expected of the queue of instant actions in every state reached. -/
structure InstantActionQueue (c : Config) : Prop where
  ordered : Library.Always DispatchedInOrder c.log
  live : c.isIdle → c.agv.currentInstantActions ≠ [] →
    ∃ action, some action ∈ processedInstantActions c.log ∧
      action.actionId ∉ endedInstantActions c.log
  complete : c.isIdle →
    (∀ action, some action ∈ processedInstantActions c.log →
      action.actionId ∈ endedInstantActions c.log) →
    ∀ action ∈ acceptedInstantActions c.log, some action ∈ processedInstantActions c.log

/-- Nothing waits in an idle controller unless something is running. -/
private theorem QueueBook.exists_running {c : Config} {processed waiting : List Action}
    (book : QueueBook c processed waiting) (resting : Resting (runningActions c.log processed) waiting)
    (occupied : c.agv.currentInstantActions ≠ []) :
    ∃ action, some action ∈ processedInstantActions c.log ∧
      action.actionId ∉ endedInstantActions c.log := by
  have running : runningActions c.log processed ≠ [] := by
    rcases resting with rfl | ⟨running, -⟩
    · rw [book.queue, List.append_nil] at occupied
      exact occupied
    · exact running
  obtain ⟨action, member⟩ := List.exists_mem_of_ne_nil _ running
  obtain ⟨dispatched, going⟩ := List.mem_filter.mp member
  refine ⟨action, ?_, by simpa using going⟩
  rw [book.dispatched]
  exact List.mem_map_of_mem dispatched

/-- Instant actions are dispatched once and in order, and none is forgotten. -/
theorem instantActionQueue_of_undisturbed {limit : Nat} {events : List Event} {c : Config}
    (run : ControllerRun QueueUndisturbed limit events c) : InstantActionQueue c := by
  rcases QueueInvariant.of_run run with ⟨crashed, -, ordered⟩ | ⟨processed, waiting, book, phase⟩
  · exact ⟨ordered, by simp [Config.isIdle, crashed], by simp [Config.isIdle, crashed]⟩
  · have rests : c.isIdle → Resting (runningActions c.log processed) waiting := by
      intro idle
      have empty : c.stack = [] := by
        simp only [Config.isIdle, Bool.and_eq_true, List.isEmpty_iff] at idle
        exact idle.2
      rw [empty] at phase
      exact ((phase.settled_of_inert (by simp)).resting_of_not_loop (by simp)).2
    refine ⟨book.ordered, fun idle => book.exists_running (rests idle), fun idle done => ?_⟩
    have drained : c.agv.currentInstantActions = [] := by
      by_contra occupied
      obtain ⟨action, dispatched, going⟩ := book.exists_running (rests idle) occupied
      exact going (done action dispatched)
    rw [book.queue, List.append_eq_nil_iff] at drained
    rw [book.accepted, book.dispatched, drained.2, List.append_nil]
    exact fun action member => List.mem_map_of_mem member

/-- Two state requests that are executed in parallel. -/
def stateRequests : InstantActions where
  actions :=
    [{ actionId := "request1", actionType := "stateRequest", blockingType := .none },
      { actionId := "request2", actionType := "stateRequest", blockingType := .none }]

/-- A queue with actions of every kind. -/
def mixedActions : InstantActions where
  actions :=
    [{ actionId := "pause", actionType := "startPause", blockingType := .none },
      { actionId := "beep", actionType := "beep", blockingType := .soft },
      { actionId := "dock", actionType := "dock", blockingType := .hard }]

/-- The HARD action is dispatched when both parallel ones have ended. -/
theorem instantActionQueue_of_mixedActions :
    ∃ events c, ControllerRun QueueUndisturbed 5 events c ∧ InstantActionQueue c ∧
      processedInstantActions c.log = mixedActions.actions.map some := by
  let context (action : Action) (stopDriving : Bool) : ActionContext :=
    { action := action, scope := .instant, stopDriving := some stopDriving }
  obtain ⟨c, run, passed⟩ := ControllerRun.exists_of_execute QueueUndisturbed 5
    [.instantActions mixedActions {}, .proceed, .proceed, .proceed, .proceed, .proceed, .proceed,
      .updateActionStatus
        (context { actionId := "beep", actionType := "beep", blockingType := .soft } true)
        { actionStatus := .finished },
      .updateActionStatus
        (context { actionId := "pause", actionType := "startPause", blockingType := .none } true)
        { actionStatus := .finished },
      .proceed]
    (fun c => processedInstantActions c.log = mixedActions.actions.map some) (by decide)
  exact ⟨_, c, run, instantActionQueue_of_undisturbed run, by simpa using passed⟩

/-- The first request ends while the loop over both is going on, which then
dispatches what stands behind the second one. -/
theorem not_instantActionQueue_of_stateRequests :
    ∃ c, ControllerRun (fun _ _ => True) 5
      [.instantActions stateRequests {}, .proceed, .proceed, .proceed] c ∧
        ¬InstantActionQueue c := by
  obtain ⟨c, run, passed⟩ := ControllerRun.exists_of_execute (fun _ _ => True) 5
    [.instantActions stateRequests {}, .proceed, .proceed, .proceed]
    (fun c => c.log.getLast? = some (.instantActionProcessed none)) (by decide)
  have dispatched : c.log.getLast? = some (.instantActionProcessed none) := by simpa using passed
  refine ⟨c, run, fun queue => ?_⟩
  obtain ⟨past, split⟩ := List.getLast?_eq_some_iff.mp dispatched
  obtain ⟨action, -, same, -⟩ := queue.ordered past _ [] split none rfl
  cases same

end Vda5050
