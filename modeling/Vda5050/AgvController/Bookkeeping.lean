import Vda5050.AgvController.Provenance

/-!
# Bookkeeping of action states

The action states of an order mirror the progress of its actions: each
released action has one, and each one that is neither waiting nor ended belongs
to an action handed over to the adapter.
-/

set_option autoImplicit false

namespace Vda5050

open AgvController

/-- The actionIds of accepted orders and instant actions are distinct. -/
def Config.DistinctIds (c : Config) : Prop := (c.orderIds ++ c.instantIds).Nodup

structure Bookkeeping (c : Config) : Prop where
  unique : (c.agv.currentState.actionStates.map (·.actionId)).Nodup
  handedOver : ∀ state ∈ c.agv.currentState.actionStates, state.actionId ∈ c.orderIds →
    state.actionStatus.isEnded ∨ state.actionStatus = .waiting ∨
      ∃ context ∈ c.executing, context.scope ≠ .instant ∧
        context.action.actionId = state.actionId
  reported : ∀ order, c.agv.currentOrder = some order → ∀ action ∈ order.releasedActions,
    ∃ state ∈ c.agv.currentState.actionStates, state.actionId = action.actionId
  canceled : c.agv.hasCancelingOrder → ∀ state ∈ c.agv.currentState.actionStates,
    state.actionId ∈ c.orderIds → state.actionStatus ≠ .waiting

/-! ## Methods that keep the books as they are -/

/-- Nothing the bookkeeping is about changes, except that actions may be
handed over and a cancelation may end. -/
structure KeepsBooks (c next : Config) : Prop where
  actionStates : next.agv.currentState.actionStates = c.agv.currentState.actionStates
  currentOrder : next.agv.currentOrder = c.agv.currentOrder
  canceling : next.agv.hasCancelingOrder → c.agv.hasCancelingOrder
  executing : ∀ context ∈ c.executing, context.scope ≠ .instant → context ∈ next.executing

namespace KeepsBooks

theorem refl (c : Config) : KeepsBooks c c := ⟨rfl, rfl, id, fun _ member _ => member⟩

theorem trans {c middle next : Config} (first : KeepsBooks c middle)
    (second : KeepsBooks middle next) : KeepsBooks c next where
  actionStates := second.actionStates.trans first.actionStates
  currentOrder := second.currentOrder.trans first.currentOrder
  canceling := fun canceling => first.canceling (second.canceling canceling)
  executing := fun context member order =>
    second.executing context (first.executing context member order) order

theorem of_move {c next : Config} (move : OrderMove c next) : KeepsBooks c next := by
  obtain ⟨_, _, _, _, _, agv⟩ := move.agv
  obtain ⟨contexts, executing, -⟩ := move.executing
  exact ⟨by rw [agv], by rw [agv], by rw [agv]; exact id,
    fun context member _ => executing ▸ List.mem_append_right _ member⟩

end KeepsBooks

private theorem Bookkeeping.keep_of_orderIds {c next : Config} (books : Bookkeeping c)
    (orders : next.orderIds = c.orderIds) (kept : KeepsBooks c next) : Bookkeeping next where
  unique := kept.actionStates ▸ books.unique
  handedOver := by
    rw [kept.actionStates, orders]
    intro state member order
    rcases books.handedOver state member order with ended | waiting | ⟨context, held, scope, same⟩
    · exact .inl ended
    · exact .inr (.inl waiting)
    · exact .inr (.inr ⟨context, kept.executing context held scope, scope, same⟩)
  reported := by
    rw [kept.actionStates, kept.currentOrder]
    exact books.reported
  canceled := by
    rw [kept.actionStates, orders]
    exact fun canceling => books.canceled (kept.canceling canceling)

theorem Bookkeeping.keep {c next : Config} (books : Bookkeeping c) (quiet : c.Quiet next)
    (kept : KeepsBooks c next) : Bookkeeping next :=
  books.keep_of_orderIds quiet.orderIds kept

namespace Config

variable (c : Config)

private theorem instantActionEnded_keeps (action : Action) :
    KeepsBooks c (c.instantActionEnded action) := by
  unfold instantActionEnded
  simp only
  split
  · exact ⟨rfl, rfl, id, fun _ member _ => member⟩
  · split
    · exact ⟨rfl, rfl, id, fun _ member _ => member⟩
    · split <;> exact ⟨rfl, rfl, id, fun _ member _ => member⟩

private theorem orderActionCanceled_keeps : KeepsBooks c c.orderActionCanceled := by
  unfold orderActionCanceled
  split
  · exact ⟨rfl, rfl, id, fun _ member _ => member⟩
  · split
    · exact ⟨rfl, rfl, id, fun _ member _ => member⟩
    · exact .refl c

private theorem processInstantActionChunk_keeps (afterAction : Option Action)
    (skipInitialHard : Bool) :
    KeepsBooks c (c.processInstantActionChunk afterAction skipInitialHard) := by
  unfold processInstantActionChunk
  simp only
  split
  · split <;> exact ⟨rfl, rfl, id, fun _ member _ => member⟩
  · exact ⟨rfl, rfl, id, fun _ member _ => member⟩

private theorem resumePausedNode_keeps : KeepsBooks c c.resumePausedNode := by
  unfold resumePausedNode
  split
  · exact .refl c
  · have cleared : KeepsBooks c { c with agv := { c.agv with currentPausedNode := none } } :=
      ⟨rfl, rfl, id, fun _ member _ => member⟩
    simp only
    split
    · exact cleared
    · exact cleared.trans (.of_move (processNode_move _ _ _))

private theorem updateEdgeTraversed_keeps (context : TraverseEdgeContext) :
    KeepsBooks c (c.updateEdgeTraversed context) := by
  unfold updateEdgeTraversed
  split
  · exact .refl c
  · split
    · exact ⟨rfl, rfl, id, fun _ member _ => member⟩
    · exact .of_move (processNode_move _ _ _)

private theorem updateState_keeps {newPartialState : PartialState}
    (noActions : newPartialState.actionStates = none) (publishImmediately : Bool) :
    KeepsBooks c (c.updateState newPartialState publishImmediately) :=
  ⟨by simp [State.merge, noActions], by simp, by simp [hasCancelingOrder],
    fun _ member _ => by simpa using member⟩

private theorem addError_keeps (error : Error) : KeepsBooks c (c.addError error) := by
  unfold addError
  refine KeepsBooks.trans ?_ (updateState_keeps _ rfl true)
  exact ⟨rfl, rfl, id, fun _ member _ => member⟩

private theorem addInstantActionError_keeps (error : Error) :
    KeepsBooks c (c.addInstantActionError error) := by
  unfold addInstantActionError
  refine KeepsBooks.trans ?_ (addError_keeps _ error)
  exact ⟨rfl, rfl, id, fun _ member _ => member⟩

private theorem updatePartialState_keeps {newState : PartialState}
    (noActions : newState.actionStates = none) (reportImmediately : Bool) :
    KeepsBooks c (c.updatePartialState newState reportImmediately) := by
  unfold updatePartialState
  simp only
  refine KeepsBooks.trans ?_ (updateState_keeps _ ?_ reportImmediately)
  · rw [cloneState_snd]
    exact ⟨rfl, rfl, id, fun _ member _ => member⟩
  · rw [cloneState_fst]
    exact noActions

private theorem updateErrors_keeps (error : Error) (mode : UpdateMode) (reportImmediately : Bool) :
    KeepsBooks c (c.updateErrors error mode reportImmediately) := by
  unfold updateErrors
  split
  · exact ⟨rfl, rfl, id, fun _ member _ => member⟩
  · exact .refl c
  · exact updatePartialState_keeps c rfl reportImmediately

private theorem publishCurrentState_keeps : KeepsBooks c c.publishCurrentState :=
  ⟨by simp, by simp, by simp, fun _ member _ => by simpa using member⟩

private theorem acceptInstantActions_keeps (adapter : AdapterAnswers) (actions : List Action) :
    KeepsBooks c (c.acceptInstantActions adapter actions) := by
  obtain ⟨accepted, agv, published, inFlight, observations, same, ⟨_, _, _, rfl⟩, -⟩ :=
    acceptInstantActions_eq c adapter actions
  rw [same]
  exact ⟨rfl, rfl, id, fun _ member _ => member⟩

private theorem cancelOrderActions_keeps (states : List ActionState)
    (hasActionsToBeCanceled : Bool) :
    KeepsBooks c (c.resume (.cancelOrderActions states hasActionsToBeCanceled)) := by
  cases states with
  | nil =>
      cases hasActionsToBeCanceled with
      | true => exact .refl c
      | false => exact ⟨rfl, rfl, id, fun _ member _ => member⟩
  | cons state states =>
      simp only [resume, cancelOrderAction]
      split
      · split <;> exact ⟨rfl, rfl, id, fun _ member _ => member⟩
      · exact ⟨rfl, rfl, id, fun _ member _ => member⟩

/-- What follows the report of an action leaves the books as they are. -/
private theorem updateActionStatus_keeps (context : ActionContext)
    (change : ActionStatusChangeInfo) :
    KeepsBooks (c.reportActionStatus context change) (c.updateActionStatus context change) := by
  unfold updateActionStatus
  simp only
  split
  · exact .refl _
  · split
    · exact instantActionEnded_keeps _ _
    · split
      · exact orderActionCanceled_keeps _
      · exact .of_move (nodeActionEnded_move _ _ _)
    · split
      · exact orderActionCanceled_keeps _
      · exact .of_move (edgeActionEnded_move _ _ _)

end Config

/-! ## Reports -/

/-- A report is appended, or it takes the place of the state it updates. -/
theorem newActionStates_eq (states : List ActionState) (reported : ActionState) :
    (∀ state ∈ states, state.actionId ≠ reported.actionId) ∧
        Config.newActionStates states reported = states ++ [reported] ∨
      ∃ before old after, states = before ++ old :: after ∧
        old.actionId = reported.actionId ∧
        Config.newActionStates states reported = before ++ reported :: after := by
  unfold Config.newActionStates
  split
  · next absent =>
    exact .inl ⟨by simpa using List.findIdx?_eq_none_iff.mp absent, rfl⟩
  · next i found =>
    obtain ⟨inside, same, -⟩ := List.findIdx?_eq_some_iff_getElem.mp found
    refine .inr ⟨states.take i, states[i], states.drop (i + 1), ?_, by simpa using same, ?_⟩
    · simp
    · exact List.set_eq_take_append_cons_drop.trans (if_pos inside)

theorem mem_newActionStates_iff {states : List ActionState} {reported state : ActionState}
    (unique : (states.map (·.actionId)).Nodup) :
    state ∈ Config.newActionStates states reported ↔
      state = reported ∨ state ∈ states ∧ state.actionId ≠ reported.actionId := by
  rcases newActionStates_eq states reported with ⟨absent, same⟩ | ⟨before, old, after, rfl, id, same⟩
  · rw [same]
    simp only [List.mem_append, List.mem_singleton]
    constructor
    · rintro (member | rfl)
      · exact .inr ⟨member, absent state member⟩
      · exact .inl rfl
    · rintro (rfl | ⟨member, -⟩)
      · exact .inr rfl
      · exact .inl member
  · rw [same]
    simp only [List.map_append, List.map_cons, List.nodup_append, List.nodup_cons,
      List.mem_cons, List.mem_map, List.mem_append] at unique ⊢
    obtain ⟨-, ⟨behind, -⟩, front⟩ := unique
    constructor
    · rintro (member | rfl | member)
      · exact .inr ⟨.inl member, fun clash =>
          front _ ⟨state, member, rfl⟩ _ (.inl rfl) (clash.trans id.symm)⟩
      · exact .inl rfl
      · exact .inr ⟨.inr (.inr member), fun clash =>
          behind ⟨state, member, clash.trans id.symm⟩⟩
    · rintro (rfl | ⟨member | rfl | member, different⟩)
      · exact .inr (.inl rfl)
      · exact .inl member
      · exact absurd id different
      · exact .inr (.inr member)

private theorem nodup_newActionStates {states : List ActionState} (reported : ActionState)
    (unique : (states.map (·.actionId)).Nodup) :
    ((Config.newActionStates states reported).map (·.actionId)).Nodup := by
  rcases newActionStates_eq states reported with ⟨absent, same⟩ | ⟨before, old, after, rfl, id, same⟩
  · rw [same, List.map_append, List.nodup_append]
    refine ⟨unique, by simp, ?_⟩
    intro left member right added
    obtain ⟨state, included, rfl⟩ := List.mem_map.mp member
    obtain rfl : right = reported.actionId := by simpa using added
    exact absent state included
  · rw [same]
    simpa [id] using unique

theorem Bookkeeping.report {c next : Config} {context : ActionContext}
    {change : ActionStatusChangeInfo} (books : Bookkeeping c)
    (agv : c.agv.Reports (Config.newActionState context change) change.linkedState next.agv)
    (quiet : c.Quiet next) (status : change.actionStatus ≠ .waiting)
    (others : ∀ other ∈ c.executing, other.scope ≠ .instant →
      other.action.actionId ≠ context.action.actionId → other ∈ next.executing)
    (own : context.action.actionId ∈ c.orderIds → change.actionStatus.isEnded ∨
      ∃ other ∈ next.executing, other.scope ≠ .instant ∧
        other.action.actionId = context.action.actionId) : Bookkeeping next := by
  obtain ⟨currentState, nextErrorRef, agv, states, -⟩ := agv
  constructor
  case unique =>
    simp only [agv, states]
    exact nodup_newActionStates _ books.unique
  case handedOver =>
    simp only [agv, states, quiet.orderIds]
    intro state member order
    rcases (mem_newActionStates_iff books.unique).mp member with rfl | ⟨member, different⟩
    · rcases own order with ended | executing
      · exact .inl ended
      · exact .inr (.inr executing)
    · rcases books.handedOver state member order with ended | waiting | ⟨other, held, scope, same⟩
      · exact .inl ended
      · exact .inr (.inl waiting)
      · exact .inr (.inr ⟨other, others other held scope (same ▸ different), scope, same⟩)
  case reported =>
    simp only [agv, states]
    intro order current action member
    obtain ⟨state, included, same⟩ := books.reported order current action member
    by_cases own : state.actionId = context.action.actionId
    · exact ⟨_, (mem_newActionStates_iff books.unique).mpr (.inl rfl), own.symm.trans same⟩
    · exact ⟨state, (mem_newActionStates_iff books.unique).mpr (.inr ⟨included, own⟩), same⟩
  case canceled =>
    simp only [agv, states, quiet.orderIds]
    intro canceling state member order
    rcases (mem_newActionStates_iff books.unique).mp member with rfl | ⟨member, different⟩
    · exact status
    · exact books.canceled canceling state member order

/-! ## Distinct actionIds -/

namespace Config

variable {c : Config}

theorem DistinctIds.disjoint (distinct : c.DistinctIds) {id : String} (order : id ∈ c.orderIds)
    (instant : id ∈ c.instantIds) : False :=
  (List.nodup_append.mp distinct).2.2 id order id instant rfl

theorem DistinctIds.initial (limit : Nat) : (Config.initial limit).DistinctIds := by
  simp [DistinctIds, orderIds, instantIds, Config.initial, acceptedOrderActions,
    acceptedInstantActions, actionIds]

theorem DistinctIds.of_quiet {next : Config} (distinct : c.DistinctIds) (quiet : c.Quiet next) :
    next.DistinctIds := by
  unfold DistinctIds
  rw [quiet.orderIds, quiet.instantIds]
  exact distinct

private theorem released_mapIdx (nodes : List Node) (update : Nat → Node → Node)
    (same : ∀ i node, (update i node).released = node.released ∧
      (update i node).actions = node.actions) :
    ((nodes.mapIdx update).filter (·.released)).flatMap (·.actions) =
      (nodes.filter (·.released)).flatMap (·.actions) := by
  induction nodes generalizing update with
  | nil => rfl
  | cons node nodes ih =>
      rw [List.mapIdx_cons, List.filter_cons, List.filter_cons, (same 0 node).1]
      have rest := ih (fun i => update (i + 1)) fun i => same (i + 1)
      split
      · rw [List.flatMap_cons, List.flatMap_cons, rest, (same 0 node).2]
      · exact rest

/-- New node objects have the actions of the received ones. -/
theorem releasedActions_allocateNodes (received : Nat) (order : Order) :
    (allocateNodes received order).releasedActions = order.releasedActions := by
  simp only [Order.releasedActions, allocateNodes]
  rw [released_mapIdx]
  exact fun _ _ => ⟨rfl, rfl⟩

theorem DistinctIds.perform (distinct : c.DistinctIds) {event : Event}
    (fresh : DistinctActionIds c event) : (c.perform event).DistinctIds := by
  obtain ⟨orders, instants, apart⟩ := List.nodup_append.mp distinct
  cases event with
  | order order adapter =>
      cases decided : c.agv.decideOrder adapter (allocateNodes c.received order) with
      | accept mode =>
          obtain ⟨unique, fresh⟩ := fresh ⟨mode, decided⟩
          have quiet := processOrder_accept_quiet c decided
          simp only [DistinctIds, Config.perform, quiet.orderIds, quiet.instantIds,
            orderIds_observe_orderAccepted, instantIds_observe_orderAccepted,
            releasedActions_allocateNodes]
          rw [List.nodup_append, List.nodup_append]
          refine ⟨⟨orders, unique, ?_⟩, instants, ?_⟩
          · intro known member id new clash
            exact (fresh id new).1 (clash ▸ member)
          · intro id member known instant clash
            rcases List.mem_append.mp member with member | member
            · exact apart id member known instant clash
            · exact (fresh id member).2 (clash ▸ instant)
      | reject | discard =>
          exact distinct.of_quiet (processOrder_quiet c (by simp [decided]))
  | instantActions message adapter =>
      obtain ⟨accepted, sub, added, same⟩ := processInstantActions_ids c message adapter
      obtain ⟨unique, fresh⟩ := fresh
      have sub := sub.map (·.actionId)
      simp only [DistinctIds, Config.perform, added, same, ← List.append_assoc]
      rw [List.nodup_append]
      refine ⟨distinct, sub.nodup unique, ?_⟩
      intro known member id new clash
      obtain ⟨notOrder, notInstant⟩ := fresh id (sub.subset new)
      rcases List.mem_append.mp member with member | member
      · exact notOrder (clash ▸ member)
      · exact notInstant (clash ▸ member)
  | _ => exact distinct.of_quiet (perform_quiet c rfl)

end Config

/-! ## Cancelation -/

/-- Action states with the actionId of an order action are not taken for
states of instant actions. -/
theorem Config.Provenant.not_isInstantActionState {c : Config} (valid : c.Provenant)
    (distinct : c.DistinctIds) {state : ActionState} (order : state.actionId ∈ c.orderIds) :
    c.agv.isInstantActionState state = false := by
  refine Bool.eq_false_iff.mpr fun counted => ?_
  obtain ⟨entry, member, same⟩ := List.any_eq_true.mp counted
  have instant := Provenance.endedPublishCount valid entry member
  simp only [decide_eq_true_eq] at same
  exact distinct.disjoint order (same ▸ instant)

private theorem failWaitingAction_cases (agv : AgvController) (state : ActionState) :
    (Config.failWaitingAction agv state).actionStatus = .failed ∨
      Config.failWaitingAction agv state = state ∧
        (agv.isInstantActionState state ∨ state.actionStatus ≠ .waiting) := by
  unfold Config.failWaitingAction
  split
  · exact .inl rfl
  · next kept =>
    refine .inr ⟨rfl, ?_⟩
    cases counted : agv.isInstantActionState state with
    | true => exact .inl rfl
    | false => exact .inr (by simpa [counted] using kept)

theorem Bookkeeping.failWaitingActions {c next : Config} (books : Bookkeeping c)
    (valid : c.Provenant) (distinct : c.DistinctIds) {context : ActionContext}
    (quiet : c.Quiet next) (executing : next.executing = c.executing)
    (agv : next.agv =
      Config.failWaitingActions { c.agv with cancelOrderContext := some context }) :
    Bookkeeping next := by
  constructor <;> simp only [agv, executing, quiet.orderIds, Config.failWaitingActions]
  case unique =>
    rw [List.map_map]
    refine (congrArg List.Nodup (List.map_congr_left fun state _ => ?_)).mpr books.unique
    exact Config.failWaitingAction_actionId _ state
  case handedOver =>
    intro state member order
    obtain ⟨original, included, rfl⟩ := List.mem_map.mp member
    rw [Config.failWaitingAction_actionId] at order ⊢
    rcases failWaitingAction_cases _ original with failed | ⟨same, -⟩
    · exact .inl (by rw [failed]; rfl)
    · rw [same]
      exact books.handedOver original included order
  case reported =>
    intro order current action member
    obtain ⟨state, included, same⟩ := books.reported order current action member
    exact ⟨_, List.mem_map_of_mem included, (Config.failWaitingAction_actionId _ state).trans same⟩
  case canceled =>
    intro _ state member order
    obtain ⟨original, included, rfl⟩ := List.mem_map.mp member
    rw [Config.failWaitingAction_actionId] at order
    rcases failWaitingAction_cases { c.agv with cancelOrderContext := some context } original with
      failed | ⟨same, instant | status⟩
    · simp [failed]
    · have other := valid.not_isInstantActionState distinct order
      exact absurd instant (Bool.eq_false_iff.mp other)
    · rwa [same]

/-- The report of an instant action and what follows it. -/
private theorem Bookkeeping.updateInstantAction {c : Config} (books : Bookkeeping c)
    (distinct : c.DistinctIds) {context : ActionContext}
    (instant : context.action.actionId ∈ c.instantIds) (change : ActionStatusChangeInfo)
    (status : change.actionStatus ≠ .waiting) (vehicle : change.linkedState.isVehicleState) :
    Bookkeeping (c.updateActionStatus context change) := by
  have reported : Bookkeeping (c.reportActionStatus context change) :=
    books.report (Config.reportActionStatus_agv c context change vehicle)
      (Config.reportActionStatus_quiet c context change) status
      (fun other member _ _ => by simpa using member)
      (fun order => (distinct.disjoint order instant).elim)
  exact reported.keep (Config.updateActionStatus_quiet_report c context change)
    (Config.updateActionStatus_keeps c context change)

theorem Bookkeeping.cancelOrder {c : Config} (books : Bookkeeping c)
    (valid : c.Provenant) (distinct : c.DistinctIds) {context : ActionContext}
    (instant : context.action.actionId ∈ c.instantIds) :
    Bookkeeping (c.cancelOrder context) := by
  have quiet : c.Quiet
      ((c.observe (.cancelOrder context c.agv.hasActiveOrder c.agv.hasCancelingOrder)).startCancelation
        context) := .of_log_concat _ rfl rfl
  have failed := books.failWaitingActions valid distinct quiet rfl rfl
  have running := failed.updateInstantAction (distinct.of_quiet quiet)
    (by rw [quiet.instantIds]; exact instant) { actionStatus := .running } (by simp)
    PartialState.isVehicleState_empty
  exact running.keep (.of_log rfl) ⟨rfl, rfl, id, fun _ member _ => member⟩

theorem Bookkeeping.processInstantAction {c : Config} (books : Bookkeeping c)
    (valid : c.Provenant) (distinct : c.DistinctIds) {action : Option Action}
    (instant : ∀ a, action = some a → a.actionId ∈ c.instantIds) (stopDriving : Bool) :
    Bookkeeping (c.processInstantAction action stopDriving) := by
  unfold Config.processInstantAction
  cases action with
  | none => exact books.keep (.of_log_concat _ rfl rfl) ⟨rfl, rfl, id, fun _ member _ => member⟩
  | some action =>
      have quiet : c.Quiet
          ((c.observe (.instantActionProcessed (some action))).resetEndedPublishCount action) :=
        .of_log_concat _ rfl rfl
      have counted := books.keep quiet ⟨rfl, rfl, id, fun _ member _ => member⟩
      have distinct := distinct.of_quiet quiet
      have instant : action.actionId ∈
          ((c.observe (.instantActionProcessed (some action))).resetEndedPublishCount
            action).instantIds := by
        rw [quiet.instantIds]
        exact instant action rfl
      simp only
      split
      · exact books.keep (.of_log_concat _ rfl rfl) ⟨rfl, rfl, id, fun _ member _ => member⟩
      split
      · exact counted.updateInstantAction distinct instant _ (by simp)
          PartialState.isVehicleState_empty
      · split
        · have valid := (Provenance.observe valid
            (.instantActionProcessed (some action))).resetEndedPublishCount
              (quiet.instantIds ▸ instant)
          exact counted.cancelOrder (.of_quiet quiet valid) distinct instant
        · refine counted.keep ?_ ⟨rfl, rfl, id, fun _ member _ => List.mem_cons_of_mem _ member⟩
          exact .of_log_concat _ rfl rfl

theorem Bookkeeping.adapterReports {c : Config} (books : Bookkeeping c) (valid : c.Provenant)
    (distinct : c.DistinctIds) {context : ActionContext} (held : context ∈ c.executing)
    {change : ActionStatusChangeInfo} (status : change.actionStatus ≠ .waiting)
    (vehicle : change.linkedState.isVehicleState) :
    Bookkeeping (c.adapterReports context change) := by
  have report : ∀ frames, Bookkeeping
      (({ c with
          executing :=
            if change.actionStatus.isEnded then c.executing.erase context
            else c.executing }.call frames).updateActionStatus context change) := by
    intro frames
    refine Bookkeeping.keep ?_ (Config.updateActionStatus_quiet_report _ context change)
      (Config.updateActionStatus_keeps _ context change)
    refine books.report (Config.reportActionStatus_agv _ context change vehicle) ?_ status ?_ ?_
    · exact .of_log_concat _ (Config.reportActionStatus_log _ context change) rfl
    · intro other member _ different
      simp only [Config.reportActionStatus_executing, Config.call]
      split
      · refine (List.mem_erase_of_ne ?_).mpr member
        rintro rfl
        exact different rfl
      · exact member
    · intro order
      cases ended : change.actionStatus.isEnded with
      | true => exact .inl rfl
      | false =>
          refine .inr ⟨context, by simpa [ended, Config.call] using held, ?_, rfl⟩
          intro instant
          have own := Provenance.executing valid context held
          simp only [ActionContext.From, instant] at own
          exact distinct.disjoint order own
  unfold Config.adapterReports Config.updateActionStatusCallback
  simp only
  split
  · exact report [.resumePausedNode]
  · exact report []

theorem Bookkeeping.stopped {c : Config} (books : Bookkeeping c) (valid : c.Provenant)
    (distinct : c.DistinctIds) (context : StopTraverseContext) :
    Bookkeeping (c.stopped context) := by
  have quiet : c.Quiet
      (({ c.observe (.stopped context c.agv.cancelOrderContext) with
          agv := { c.agv with cancelOrderContext := none } }).updateState
        { nodeStates := some [], edgeStates := some [] } false) :=
    .of_log_concat (.stopped context c.agv.cancelOrderContext) rfl rfl
  have emptied := books.keep quiet ⟨rfl, rfl, nofun, fun _ member _ => member⟩
  unfold Config.stopped
  simp only
  split
  · exact emptied.keep (.of_log rfl) ⟨rfl, rfl, id, fun _ member _ => member⟩
  · next cancelOrderContext pending =>
    have instant := (Provenance.cancelOrderContext valid cancelOrderContext pending).2
    exact emptied.updateInstantAction (distinct.of_quiet quiet)
      (by rw [quiet.instantIds]; exact instant) _ (by simp) PartialState.isVehicleState_empty

theorem Bookkeeping.cleanupInstantActionStates {c : Config} (books : Bookkeeping c)
    (valid : c.Provenant) (distinct : c.DistinctIds) :
    Bookkeeping c.cleanupInstantActionStates where
  unique := books.unique.sublist (List.filter_sublist.map _)
  handedOver state member := books.handedOver state (List.mem_of_mem_filter member)
  reported order current action member := by
    obtain ⟨state, included, same⟩ := books.reported order current action member
    refine ⟨state, List.mem_filter.mpr ⟨included, ?_⟩, same⟩
    -- only states of instant actions are removed
    refine Bool.not_eq_true' _ ▸ Bool.eq_false_iff.mpr fun removed => ?_
    obtain ⟨entry, counted, clash⟩ := List.any_eq_true.mp removed
    have instant := Provenance.endedPublishCount valid entry (List.mem_of_mem_filter counted)
    have own := (Provenance.currentOrder valid order current).releasedActions action member
    simp only [decide_eq_true_eq] at clash
    exact distinct.disjoint own (same ▸ clash ▸ instant)
  canceled canceling state member := books.canceled canceling state (List.mem_of_mem_filter member)

/-! ## Acceptance -/

theorem Config.beginOrder_actionStates (c : Config) (trajectory : TrajectoryHandler)
    (order : Order) {mode : AcceptMode} (notStitch : mode ≠ .stitch) :
    (c.beginOrder trajectory order mode).agv.currentState.actionStates =
      c.agv.getInstantActionStates ++ getActionStates order := by
  have accepted : (c.agv.acceptedState trajectory order mode).actionStates =
      some (c.agv.getInstantActionStates ++ getActionStates order) := by
    cases mode with
    | new | update => rfl
    | stitch => exact absurd rfl notStitch
  simp [Config.beginOrder, State.merge, accepted]

theorem Config.stitchOrder_actionStates (c : Config) (trajectory : TrajectoryHandler)
    (currentOrder : Order) (baseEnd : Node) (order : Order) :
    (c.stitchOrder trajectory currentOrder baseEnd order).agv.currentState.actionStates =
      c.agv.currentState.actionStates ++ getActionStates order := by
  simp [Config.stitchOrder, State.merge, acceptedState]

theorem actionIds_getActionStates (order : Order) :
    (getActionStates order).map (·.actionId) = actionIds order.releasedActions := by
  simp [getActionStates, actionIds]

theorem Order.mem_releasedActions {order : Order} {action : Action} :
    action ∈ order.releasedActions ↔
      (∃ node ∈ order.nodes, node.released ∧ action ∈ node.actions) ∨
        ∃ edge ∈ order.edges, edge.released ∧ action ∈ edge.actions := by
  simp [Order.releasedActions, List.mem_flatMap, and_assoc]

/-- Stitching releases no other actions than the two orders do. -/
private theorem mem_releasedActions_stitchedOrder {currentOrder order : Order} {baseEnd : Node}
    {action : Action} (found : currentBaseEnd currentOrder = some baseEnd)
    (valid : validateOrderConstraints order = .ok ())
    (member : action ∈ (stitchedOrder currentOrder baseEnd order).releasedActions) :
    action ∈ currentOrder.releasedActions ∨ action ∈ order.releasedActions := by
  obtain ⟨held, released⟩ := currentBaseEnd_spec found
  obtain ⟨firstNode, nodes, same, first⟩ := head_released_of_validateOrderConstraints valid
  simp only [Order.mem_releasedActions]
  rcases Order.mem_releasedActions.mp member with
    ⟨node, member, own, included⟩ | ⟨edge, member, own, included⟩
  · rcases List.mem_append.mp member with member | member
    · obtain ⟨original, present, rfl⟩ := List.mem_map.mp member
      unfold AgvController.replaceNode at own included
      split at included
      · rcases List.mem_append.mp included with included | included
        · exact .inl (.inl ⟨baseEnd, held, released, included⟩)
        · rw [same] at included
          exact .inr (.inl ⟨firstNode, by simp [same], first, included⟩)
      · next other =>
        rw [if_neg other] at own
        exact .inl (.inl ⟨original, beforeHorizon_subset _ _ present, own, included⟩)
    · exact .inr (.inl ⟨node, List.mem_of_mem_tail member, own, included⟩)
  · rcases List.mem_append.mp member with member | member
    · exact .inl (.inr ⟨edge, beforeHorizon_subset _ _ member, own, included⟩)
    · exact .inr (.inr ⟨edge, member, own, included⟩)

namespace Bookkeeping

variable {c : Config} {order : Order} {mode : AcceptMode}

theorem beginOrder (books : Bookkeeping c) (valid : c.Provenant) (distinct : c.DistinctIds)
    (trajectory : TrajectoryHandler) (notStitch : mode ≠ .stitch)
    (notCanceling : c.agv.hasCancelingOrder = false)
    (unique : (actionIds order.releasedActions).Nodup)
    (fresh : ∀ id ∈ actionIds order.releasedActions, id ∉ c.orderIds ∧ id ∉ c.instantIds) :
    Bookkeeping (c.beginOrder trajectory order mode) := by
  have states := Config.beginOrder_actionStates c trajectory order notStitch
  have ids : (c.beginOrder trajectory order mode).orderIds =
      c.orderIds ++ actionIds order.releasedActions := by
    rw [← Config.orderIds_observe_orderAccepted c mode order]
    exact congrArg (fun log => actionIds (acceptedOrderActions log))
      (Config.beginOrder_log c trajectory order mode)
  have instant : ∀ state ∈ c.agv.getInstantActionStates, state.actionId ∈ c.instantIds := by
    intro state member
    obtain ⟨-, counted⟩ := List.mem_filter.mp member
    obtain ⟨entry, held, same⟩ := List.any_eq_true.mp counted
    simp only [decide_eq_true_eq] at same
    exact same ▸ Provenance.endedPublishCount valid entry held
  constructor
  case unique =>
    rw [states, List.map_append, actionIds_getActionStates, List.nodup_append]
    refine ⟨books.unique.sublist (List.filter_sublist.map _), unique, ?_⟩
    intro id member added new clash
    obtain ⟨state, included, rfl⟩ := List.mem_map.mp member
    exact (fresh added new).2 (clash ▸ instant state included)
  case handedOver =>
    rw [states, ids]
    intro state member own
    rcases List.mem_append.mp member with member | member
    · rcases List.mem_append.mp own with own | own
      · exact (distinct.disjoint own (instant state member)).elim
      · exact absurd (instant state member) (fresh _ own).2
    · obtain ⟨-, -, -, waiting⟩ := mem_getActionStates member
      exact .inr (.inl waiting)
  case reported =>
    rw [states]
    intro current same action member
    obtain rfl : order = current := by simpa [Config.beginOrder] using same
    exact ⟨_, List.mem_append_right _ (List.mem_map_of_mem member), rfl⟩
  case canceled =>
    intro canceling
    have same : (c.beginOrder trajectory order mode).agv.hasCancelingOrder = false := by
      simpa [Config.beginOrder, hasCancelingOrder, Config.observe] using notCanceling
    rw [same] at canceling
    cases canceling

theorem stitchOrder (books : Bookkeeping c) (valid : c.Provenant)
    (trajectory : TrajectoryHandler) {currentOrder : Order} {baseEnd : Node}
    (current : c.agv.currentOrder = some currentOrder)
    (found : currentBaseEnd currentOrder = some baseEnd)
    (constraints : validateOrderConstraints order = .ok ())
    (notCanceling : c.agv.hasCancelingOrder = false)
    (unique : (actionIds order.releasedActions).Nodup)
    (fresh : ∀ id ∈ actionIds order.releasedActions, id ∉ c.orderIds ∧ id ∉ c.instantIds) :
    Bookkeeping (c.stitchOrder trajectory currentOrder baseEnd order) := by
  have states := Config.stitchOrder_actionStates c trajectory currentOrder baseEnd order
  have ids : (c.stitchOrder trajectory currentOrder baseEnd order).orderIds =
      c.orderIds ++ actionIds order.releasedActions := by
    rw [← Config.orderIds_observe_orderAccepted c .stitch order]
    exact congrArg (fun log => actionIds (acceptedOrderActions log))
      (Config.stitchOrder_log c trajectory currentOrder baseEnd order)
  constructor
  case unique =>
    rw [states, List.map_append, actionIds_getActionStates, List.nodup_append]
    refine ⟨books.unique, unique, ?_⟩
    intro id member added new clash
    obtain ⟨state, included, rfl⟩ := List.mem_map.mp member
    obtain ⟨notOrder, notInstant⟩ := fresh added new
    rcases Provenance.actionStates valid state included with known | known
    · exact notOrder (clash ▸ known)
    · exact notInstant (clash ▸ known)
  case handedOver =>
    rw [states, ids]
    intro state member own
    rcases List.mem_append.mp member with member | member
    · have own : state.actionId ∈ c.orderIds := by
        rcases List.mem_append.mp own with own | new
        · exact own
        · rcases Provenance.actionStates valid state member with known | known
          · exact known
          · exact absurd known (fresh _ new).2
      rcases books.handedOver state member own with ended | waiting | ⟨context, held, scope, same⟩
      · exact .inl ended
      · exact .inr (.inl waiting)
      · refine .inr (.inr ⟨context.replaceNode (stitchedBaseEnd baseEnd order), ?_, ?_, ?_⟩)
        · rw [Config.stitchOrder, Config.updateState_executing]
          exact List.mem_map_of_mem held
        · unfold ActionContext.replaceNode
          split <;> simp_all
        · unfold ActionContext.replaceNode
          split <;> exact same
    · obtain ⟨-, -, -, waiting⟩ := mem_getActionStates member
      exact .inr (.inl waiting)
  case reported =>
    rw [states]
    intro stitched same action member
    obtain rfl : stitchedOrder currentOrder baseEnd order = stitched := by
      simpa [Config.stitchOrder] using same
    rcases mem_releasedActions_stitchedOrder found constraints member with old | new
    · obtain ⟨state, included, same⟩ := books.reported currentOrder current action old
      exact ⟨state, List.mem_append_left _ included, same⟩
    · exact ⟨_, List.mem_append_right _ (List.mem_map_of_mem new), rfl⟩
  case canceled =>
    intro canceling
    have same : (c.stitchOrder trajectory currentOrder baseEnd order).agv.hasCancelingOrder =
        false := by
      simpa [Config.stitchOrder, hasCancelingOrder, Config.observe, Config.replaceNode]
        using notCanceling
    rw [same] at canceling
    cases canceling

/-- Accepting an order keeps the books. -/
theorem acceptOrder (books : Bookkeeping c) (valid : c.Provenant) (distinct : c.DistinctIds)
    (trajectory : TrajectoryHandler) (accepts : c.agv.Accepts order mode)
    (unique : (actionIds order.releasedActions).Nodup)
    (fresh : ∀ id ∈ actionIds order.releasedActions, id ∉ c.orderIds ∧ id ∉ c.instantIds) :
    Bookkeeping (c.acceptOrder trajectory order mode) := by
  have crashed : ∀ next : Config, Bookkeeping next → Bookkeeping next.throwTypeError :=
    fun next books => books.keep (.of_log rfl) ⟨rfl, rfl, id, fun _ member _ => member⟩
  have started : ∀ (next : Config) (node : Node), Bookkeeping next →
      Bookkeeping (next.processNode node none) := fun next node books =>
    books.keep (Config.processNode_move _ _ _).quiet (.of_move (Config.processNode_move _ _ _))
  obtain ⟨constraints, notCanceling, -, stitches, -⟩ := accepts
  unfold Config.acceptOrder
  split
  · have begun : Bookkeeping (c.beginOrder trajectory order .new) :=
      books.beginOrder valid distinct trajectory (by simp) notCanceling unique fresh
    split
    · exact crashed _ begun
    · exact started _ _ begun
  · have begun : Bookkeeping (c.beginOrder trajectory order .update) :=
      books.beginOrder valid distinct trajectory (by simp) notCanceling unique fresh
    split
    · exact crashed _ begun
    · exact started _ _ begun
  · have stitching := (stitches rfl).2
    split
    · next absent => simp [isOrderBaseStitching, absent] at stitching
    · next currentOrder current =>
      split
      · next absent => simp [isOrderBaseStitching, current, absent] at stitching
      · next baseEnd found =>
        have stitched := books.stitchOrder valid trajectory current found constraints notCanceling
          unique fresh
        simp only
        split
        · exact stitched.keep (Config.processEdge_move _ _).quiet
            (.of_move (Config.processEdge_move _ _))
        · exact stitched

end Bookkeeping

/-! ## Runs -/

/-- What holds in every state reached, whatever else the adapter does. -/
structure Consistent (c : Config) : Prop where
  provenant : c.Provenant
  distinct : c.DistinctIds
  books : Bookkeeping c

theorem Consistent.initial (limit : Nat) : Consistent (Config.initial limit) where
  provenant := .initial limit
  distinct := .initial limit
  books := by
    constructor <;> simp [Config.initial, AgvController.initial, hasCancelingOrder]

theorem Bookkeeping.resume {c : Config} (books : Bookkeeping c) (valid : c.Provenant)
    (distinct : c.DistinctIds) {frame : Frame}
    (held : frame.From (· ∈ c.orderIds) (· ∈ c.instantIds)) : Bookkeeping (c.resume frame) := by
  cases frame with
  | adapter => exact books
  | finishEdgeActions | nodeTraversed | processNodeAction | processEdgeAction =>
      exact books.keep (Config.resume_quiet c _) (.of_move (Config.resume_order_move c rfl))
  | cancelOrderActions states hasActionsToBeCanceled =>
      exact books.keep (Config.resume_quiet c _)
        (Config.cancelOrderActions_keeps c states hasActionsToBeCanceled)
  | processInstantActionChunk afterAction skipInitialHard =>
      exact books.keep (.of_log (Config.processInstantActionChunk_log c _ _))
        (Config.processInstantActionChunk_keeps c _ _)
  | processInstantActions i stopIndex stopDriving =>
      simp only [Config.resume]
      split
      · have called : Bookkeeping (c.call [.processInstantActions (i + 1) stopIndex stopDriving]) :=
          books.keep (.of_log rfl) ⟨rfl, rfl, id, fun _ member _ => member⟩
        refine called.processInstantAction (.of_quiet (.of_log rfl) ?_) distinct ?_ stopDriving
        · exact Provenance.call valid (by simp [Frame.From])
        · exact fun action found =>
            Provenance.instantActions valid action (List.mem_of_getElem? found)
      · exact books
  | processInstantAction action stopDriving =>
      refine books.processInstantAction valid distinct (fun a same => ?_) stopDriving
      subst same
      exact held
  | resumePausedNode =>
      exact books.keep (Config.resume_quiet c .resumePausedNode) (Config.resumePausedNode_keeps c)

namespace Consistent

variable {c : Config}

theorem processOrder (consistent : Consistent c) {order : Order} {adapter : AdapterAnswers}
    (fresh : DistinctActionIds c (.order order adapter)) :
    Bookkeeping (c.processOrder order adapter) := by
  obtain ⟨valid, distinct, books⟩ := consistent
  have received : Bookkeeping { c with received := c.received + 1 } :=
    books.keep (.of_log rfl) ⟨rfl, rfl, id, fun _ member _ => member⟩
  have same := Config.releasedActions_allocateNodes c.received order
  unfold Config.processOrder
  cases decided : c.agv.decideOrder adapter (Config.allocateNodes c.received order) with
  | accept mode =>
      obtain ⟨unique, fresh⟩ := fresh ⟨mode, decided⟩
      simp only [decided]
      refine received.acceptOrder (.of_quiet (.of_log rfl) { valid with }) distinct _
        (decideOrder_accept decided) ?_ ?_
      · rw [same]
        exact unique
      · rw [same]
        exact fresh
  | reject error =>
      simp only [decided]
      refine received.keep (Config.rejectOrder_quiet _ error) ?_
      exact KeepsBooks.trans (Config.addError_keeps _ error) ⟨rfl, rfl, id, fun _ member _ => member⟩
  | discard =>
      simp only [decided]
      refine received.keep (.of_log_concat .orderDiscarded (by simp [Config.observe]) rfl) ?_
      exact KeepsBooks.trans (Config.updateState_keeps _ rfl true)
        ⟨rfl, rfl, id, fun _ member _ => member⟩

theorem processInstantActions (consistent : Consistent c) (message : InstantActions)
    (adapter : AdapterAnswers) : Bookkeeping (c.processInstantActions message adapter) := by
  obtain ⟨_, -, -, orders⟩ := Config.processInstantActions_ids c message adapter
  refine consistent.books.keep_of_orderIds orders ?_
  have accepted := Config.acceptInstantActions_keeps c adapter message.actions
  unfold Config.processInstantActions
  simp only
  split
  · exact ⟨rfl, rfl, id, fun _ member _ => member⟩
  split
  · exact accepted
  · exact accepted.trans ⟨rfl, rfl, id, fun _ member _ => member⟩

theorem proceed (consistent : Consistent c) : Bookkeeping c.proceed := by
  obtain ⟨valid, distinct, books⟩ := consistent
  unfold Config.proceed
  split
  · exact books
  · next frame stack pending =>
    have popped : Bookkeeping { c with stack := stack } :=
      books.keep (.of_log rfl) ⟨rfl, rfl, id, fun _ member _ => member⟩
    refine popped.resume (.of_quiet (.of_log rfl) ?_) distinct ?_
    · exact
        { valid with
          stack := fun other member =>
            Provenance.stack valid other (pending ▸ List.mem_cons_of_mem _ member) }
    · exact Provenance.stack valid frame (by simp [pending])

theorem perform (consistent : Consistent c) {event : Event}
    (environment : Environment c event) : Consistent (c.perform event) := by
  obtain ⟨contract, fresh⟩ := environment
  refine ⟨consistent.provenant.perform contract, consistent.distinct.perform fresh, ?_⟩
  obtain ⟨valid, distinct, books⟩ := consistent
  cases event with
  | order => exact processOrder ⟨valid, distinct, books⟩ fresh
  | instantActions message adapter =>
      exact processInstantActions ⟨valid, distinct, books⟩ message adapter
  | proceed => exact proceed ⟨valid, distinct, books⟩
  | invalidOrder payload message =>
      refine books.keep (Config.perform_quiet c rfl) ?_
      simp only [Config.perform, Config.processInvalidOrder]
      split
      · exact ⟨rfl, rfl, id, fun _ member _ => member⟩
      · exact KeepsBooks.trans (Config.addError_keeps c _) ⟨rfl, rfl, id, fun _ member _ => member⟩
  | invalidInstantActions payload message =>
      refine books.keep (Config.perform_quiet c rfl) ?_
      simp only [Config.perform, Config.processInvalidInstantActions]
      split
      · exact ⟨rfl, rfl, id, fun _ member _ => member⟩
      · exact Config.addInstantActionError_keeps c _
  | updateActionStatus context change =>
      exact books.adapterReports valid distinct contract.1 contract.2.1 contract.2.2
  | edgeTraversed context =>
      refine books.keep (Config.perform_quiet c rfl) ?_
      refine KeepsBooks.trans ?_ (Config.updateEdgeTraversed_keeps _ context)
      exact ⟨rfl, rfl, id, fun _ member _ => member⟩
  | stopped context =>
      have called : Bookkeeping { c with stopping := c.stopping.erase context } :=
        books.keep (.of_log rfl) ⟨rfl, rfl, id, fun _ member _ => member⟩
      exact called.stopped (.of_quiet (.of_log rfl) { valid with }) distinct context
  | drivingToNextNode nextNode =>
      exact books.keep (Config.perform_quiet c rfl) (Config.updateState_keeps c rfl true)
  | updatePartialState newState reportImmediately =>
      exact books.keep (Config.perform_quiet c rfl)
        (Config.updatePartialState_keeps c contract.1 reportImmediately)
  | updateErrors error mode reportImmediately =>
      exact books.keep (Config.perform_quiet c rfl)
        (Config.updateErrors_keeps c error mode reportImmediately)
  | publishTimer =>
      exact books.keep (Config.perform_quiet c rfl) (Config.publishCurrentState_keeps c)
  | published succeeded =>
      have counted : Bookkeeping { c with inFlight := c.inFlight - 1 } :=
        books.keep (.of_log rfl) ⟨rfl, rfl, id, fun _ member _ => member⟩
      cases succeeded with
      | false => exact counted
      | true =>
          exact counted.cleanupInstantActionStates (.of_quiet (.of_log rfl) { valid with }) distinct
  | connection online =>
      refine books.keep (Config.perform_quiet c rfl) ?_
      simp only [Config.perform]
      split
      · refine KeepsBooks.trans ?_ (Config.publishCurrentState_keeps _)
        exact ⟨rfl, rfl, id, fun _ member _ => member⟩
      · exact ⟨rfl, rfl, id, fun _ member _ => member⟩

end Consistent

end Vda5050
