import Vda5050.AgvController.Cancelation
import Vda5050.AgvController.CancelationStates

/-!
# Telling instant actions from order actions

The publication counts serve as tags: an action state belongs to an instant
action if its actionId is counted. The tags are right however often an instant
action is dispatched, as long as no adapter reports on one that has ended.
-/

set_option autoImplicit false

namespace Vda5050

open AgvController

/-- The adapter does not report on an instant action that has ended. -/
def ReportsUntilEnd (c : Config) : Event → Prop
  | .updateActionStatus context _ =>
      context.scope = .instant → context.action.actionId ∉ endedInstantActions c.log
  | _ => True

instance (c : Config) (event : Event) : Decidable (ReportsUntilEnd c event) :=
  match event with
  | .updateActionStatus context _ =>
      inferInstanceAs (Decidable (context.scope = .instant →
        context.action.actionId ∉ endedInstantActions c.log))
  | .proceed | .order .. | .invalidOrder .. | .instantActions .. | .invalidInstantActions ..
  | .edgeTraversed _ | .stopped _ | .drivingToNextNode _ | .updatePartialState ..
  | .updateErrors .. | .publishTimer | .published _ | .connection _ => isTrue trivial

/-- The instant action a pending call is to dispatch. -/
def Frame.dispatched : Frame → Option Action
  | .processInstantAction action _ => action
  | _ => none

/-- The tags of the instant actions that can still be reported. -/
structure InstantTags (c : Config) : Prop where
  queued : ∀ action ∈ c.agv.currentInstantActions, action ∈ acceptedInstantActions c.log
  pending : ∀ frame ∈ c.stack, ∀ action ∈ frame.dispatched, action ∈ acceptedInstantActions c.log
  held : ∀ action ∈ c.heldInstantActions, action ∈ acceptedInstantActions c.log
  counted : ∀ state ∈ c.agv.currentState.actionStates, state.actionId ∈ c.instantIds →
    state.actionId ∈ c.endedPublishCountKeys
  reported : ∀ state ∈ c.agv.currentState.actionStates, state.actionId ∈ c.instantIds →
    state.actionStatus.isEnded → state.actionId ∈ endedInstantActions c.log
  held_counted : ∀ action ∈ c.heldInstantActions,
    action.actionId ∈ endedInstantActions c.log ∨ action.actionId ∈ c.endedPublishCountKeys

/-- An order is canceled on behalf of a counted action that has not ended. -/
structure CancelationTag (c : Config) (context : ActionContext) : Prop where
  cancels : context.action.actionType = "cancelOrder"
  counted : context.action.actionId ∈ c.endedPublishCountKeys
  going : ∀ state ∈ c.agv.currentState.actionStates,
    state.actionId = context.action.actionId → state.actionStatus.isEnded = false

/-- The tags of all actions, those of cancelations included. -/
structure Tagged (c : Config) : Prop where
  tags : InstantTags c
  canceling : ∀ context, c.agv.cancelOrderContext = some context → CancelationTag c context

private theorem mem_instantIds_of_accepted {c : Config} {action : Action}
    (accepted : action ∈ acceptedInstantActions c.log) : action.actionId ∈ c.instantIds :=
  List.mem_map_of_mem accepted

/-- Accepted instant actions are told apart by their actionIds. -/
private theorem Config.DistinctIds.accepted_injective {c : Config} (distinct : c.DistinctIds)
    {action other : Action} (accepted : action ∈ acceptedInstantActions c.log)
    (accepted' : other ∈ acceptedInstantActions c.log)
    (same : action.actionId = other.actionId) : action = other := by
  have unique : ((acceptedInstantActions c.log).map (·.actionId)).Nodup :=
    (List.nodup_append.mp distinct).2.1
  exact List.inj_on_of_nodup_map unique accepted accepted' same

private theorem Frame.dispatched_of_isInert {frame : Frame} (inert : frame.isInert) :
    frame.dispatched = none := by
  cases frame <;> simp_all [Frame.isInert, Frame.dispatched]

namespace InstantTags

variable {c next : Config}

theorem initial (limit : Nat) : InstantTags (Config.initial limit) := by
  constructor <;> simp [Config.initial, AgvController.initial, Config.heldInstantActions]

/-- Whatever leaves the queue of instant actions alone preserves the tags. -/
theorem keep (tags : InstantTags c) (kept : KeepsQueue c next) : InstantTags next := by
  obtain ⟨observations, log, off⟩ := kept.log
  obtain ⟨accepted, -, ended⟩ := offQueue_histories off
  have instants : next.instantIds = c.instantIds := by simp [Config.instantIds, log, accepted]
  have actions : acceptedInstantActions next.log = acceptedInstantActions c.log := by
    simp [log, accepted]
  have ends : endedInstantActions next.log = endedInstantActions c.log := by simp [log, ended]
  constructor
  case queued =>
    rw [actions, kept.queue]
    exact tags.queued
  case pending =>
    rw [actions]
    intro frame member action dispatched
    rcases kept.stack with ⟨frames, stack, inert⟩ | ⟨-, empty⟩
    · rw [stack] at member
      rcases List.mem_append.mp member with pushed | member
      · rw [Frame.dispatched_of_isInert (inert frame pushed)] at dispatched
        cases dispatched
      · exact tags.pending frame member action dispatched
    · simp [empty] at member
  case held =>
    rw [actions, kept.held]
    exact tags.held
  case counted =>
    rw [instants]
    intro state member instant
    have included := kept.states state member instant
    rcases kept.counted _ instant (tags.counted state included instant) with remains | ⟨-, gone⟩
    · exact remains
    · exact absurd rfl (gone state member)
  case reported =>
    rw [instants, ends]
    exact fun state member instant =>
      tags.reported state (kept.states state member instant) instant
  case held_counted =>
    rw [kept.held, ends]
    intro action member
    have instant := mem_instantIds_of_accepted (tags.held action member)
    rcases tags.held_counted action member with done | known
    · exact .inl done
    · rcases kept.counted _ instant known with remains | ⟨⟨state, included, same, isEnded⟩, -⟩
      · exact .inr remains
      · exact .inl (same ▸ tags.reported state included (same ▸ instant) isEnded)

/-- Calls and held actions change, and counted actions may be held in addition. -/
theorem change (tags : InstantTags c)
    (states : ∀ state ∈ next.agv.currentState.actionStates, state.actionId ∈ c.instantIds →
      state ∈ c.agv.currentState.actionStates)
    (keys : ∀ id ∈ c.endedPublishCountKeys, id ∈ next.endedPublishCountKeys)
    (accepted : acceptedInstantActions next.log = acceptedInstantActions c.log)
    (ended : endedInstantActions next.log = endedInstantActions c.log)
    (queue : next.agv.currentInstantActions ⊆ c.agv.currentInstantActions)
    (stack : ∀ frame ∈ next.stack, frame ∈ c.stack ∨
      ∀ action ∈ frame.dispatched, action ∈ c.agv.currentInstantActions)
    (held : ∀ action ∈ next.heldInstantActions, action ∈ c.heldInstantActions ∨
      action ∈ acceptedInstantActions c.log ∧ action.actionId ∈ next.endedPublishCountKeys) :
    InstantTags next := by
  have instants : next.instantIds = c.instantIds := by simp [Config.instantIds, accepted]
  constructor
  case queued =>
    rw [accepted]
    exact fun action member => tags.queued action (queue member)
  case pending =>
    rw [accepted]
    intro frame member action dispatched
    rcases stack frame member with old | new
    · exact tags.pending frame old action dispatched
    · exact tags.queued action (new action dispatched)
  case held =>
    rw [accepted]
    intro action member
    rcases held action member with old | ⟨known, -⟩
    · exact tags.held action old
    · exact known
  case counted =>
    rw [instants]
    exact fun state member instant =>
      keys _ (tags.counted state (states state member instant) instant)
  case reported =>
    rw [instants, ended]
    exact fun state member instant => tags.reported state (states state member instant) instant
  case held_counted =>
    rw [ended]
    intro action member
    rcases held action member with old | ⟨-, known⟩
    · exact (tags.held_counted action old).imp_right (keys _)
    · exact .inr known

/-- A counted instant action reports its status. -/
theorem report (tags : InstantTags c) {context : ActionContext} {change : ActionStatusChangeInfo}
    (instant : context.scope = .instant) (vehicle : change.linkedState.isVehicleState)
    (counted : context.action.actionId ∈ c.endedPublishCountKeys) :
    InstantTags (c.reportActionStatus context change) := by
  obtain ⟨currentState, nextErrorRef, agv, states, -⟩ :=
    Config.reportActionStatus_agv c context change vehicle
  have log := Config.reportActionStatus_log c context change
  have accepted : acceptedInstantActions (c.reportActionStatus context change).log =
      acceptedInstantActions c.log := by simp [acceptedInstantActions]
  have instants : (c.reportActionStatus context change).instantIds = c.instantIds := by
    simp only [Config.instantIds, accepted]
  have ended : ∀ id ∈ endedInstantActions c.log,
      id ∈ endedInstantActions (c.reportActionStatus context change).log := by
    rw [log, endedInstantActions_append]
    exact fun id => List.mem_append_left _
  have held : (c.reportActionStatus context change).heldInstantActions = c.heldInstantActions := by
    simp [Config.heldInstantActions, agv]
  have keys : (c.reportActionStatus context change).endedPublishCountKeys =
      c.endedPublishCountKeys := by simp [Config.endedPublishCountKeys, agv]
  constructor
  case queued =>
    rw [accepted, agv]
    exact tags.queued
  case pending =>
    rw [accepted, Config.reportActionStatus_stack]
    exact tags.pending
  case held =>
    rw [accepted, held]
    exact tags.held
  case counted =>
    rw [instants, keys]
    simp only [agv, states]
    intro state member known
    rcases mem_newActionStates member with rfl | member
    · exact counted
    · exact tags.counted state member known
  case reported =>
    rw [instants]
    simp only [agv, states]
    intro state member known isEnded
    rcases mem_newActionStates member with rfl | member
    · have isOver : change.actionStatus.isEnded = true := isEnded
      rw [log, endedInstantActions_append]
      refine List.mem_append_right _ ?_
      simp [endedInstantActions, instant, isOver, Config.newActionState]
    · exact ended _ (tags.reported state member known isEnded)
  case held_counted =>
    rw [held, keys]
    exact fun action member => (tags.held_counted action member).imp_left (ended _)

end InstantTags

/-! ## The tag of a cancelation -/

namespace CancelationTag

variable {c next : Config} {context : ActionContext}

/-- Whatever leaves the queue of instant actions alone preserves the tag. -/
theorem keep (tag : CancelationTag c context) (kept : KeepsQueue c next)
    (known : context.action.actionId ∈ c.instantIds) : CancelationTag next context where
  cancels := tag.cancels
  counted := by
    rcases kept.counted _ known tag.counted with remains | ⟨⟨state, member, same, isEnded⟩, -⟩
    · exact remains
    · simp [tag.going state member same] at isEnded
  going := fun state member same =>
    tag.going state (kept.states state member (same ▸ known)) same

/-- The counted action of another id, or this one without an end, is reported. -/
theorem report (tag : CancelationTag c context) {reporting : ActionContext}
    {change : ActionStatusChangeInfo} (vehicle : change.linkedState.isVehicleState)
    (going : change.actionStatus.isEnded →
      context.action.actionId ≠ reporting.action.actionId) :
    CancelationTag (c.reportActionStatus reporting change) context := by
  obtain ⟨currentState, nextErrorRef, agv, states, -⟩ :=
    Config.reportActionStatus_agv c reporting change vehicle
  refine ⟨tag.cancels, ?_, ?_⟩
  · simp only [Config.endedPublishCountKeys, agv]
    exact tag.counted
  · simp only [agv, states]
    intro state member same
    rcases mem_newActionStates member with rfl | member
    · exact Bool.eq_false_iff.mpr fun isEnded => going isEnded same.symm
    · exact tag.going state member same

end CancelationTag

namespace Tagged

variable {c next : Config}

theorem initial (limit : Nat) : Tagged (Config.initial limit) :=
  ⟨.initial limit, by simp [Config.initial, AgvController.initial]⟩

private theorem mem_held_of_canceling {context : ActionContext}
    (active : c.agv.cancelOrderContext = some context) :
    context.action ∈ c.heldInstantActions := by
  simp [Config.heldInstantActions, active]

theorem keep (tagged : Tagged c) (kept : KeepsQueue c next)
    (same : next.agv.cancelOrderContext = c.agv.cancelOrderContext) : Tagged next := by
  refine ⟨tagged.tags.keep kept, ?_⟩
  rw [same]
  intro context active
  exact (tagged.canceling context active).keep kept
    (mem_instantIds_of_accepted (tagged.tags.held _ (mem_held_of_canceling active)))

/-- Calls and held actions change, and a cancelation may end. -/
theorem change (tagged : Tagged c)
    (states : next.agv.currentState.actionStates = c.agv.currentState.actionStates)
    (keys : ∀ id ∈ c.endedPublishCountKeys, id ∈ next.endedPublishCountKeys)
    (accepted : acceptedInstantActions next.log = acceptedInstantActions c.log)
    (ended : endedInstantActions next.log = endedInstantActions c.log)
    (queue : next.agv.currentInstantActions ⊆ c.agv.currentInstantActions)
    (stack : ∀ frame ∈ next.stack, frame ∈ c.stack ∨
      ∀ action ∈ frame.dispatched, action ∈ c.agv.currentInstantActions)
    (held : ∀ action ∈ next.heldInstantActions, action ∈ c.heldInstantActions ∨
      action ∈ acceptedInstantActions c.log ∧ action.actionId ∈ next.endedPublishCountKeys)
    (canceling : ∀ context, next.agv.cancelOrderContext = some context →
      c.agv.cancelOrderContext = some context) : Tagged next := by
  have tags := tagged.tags.change (fun state member _ => states ▸ member) keys accepted ended
    queue stack held
  refine ⟨tags, ?_⟩
  intro context active
  have tag := tagged.canceling context (canceling context active)
  exact ⟨tag.cancels, keys _ tag.counted, by rw [states]; exact tag.going⟩

/-- A counted action reports its status. The one on whose behalf an order is
canceled does not end. -/
theorem updateActionStatus (tagged : Tagged c) {context : ActionContext}
    {change : ActionStatusChangeInfo} (instant : context.scope = .instant)
    (vehicle : change.linkedState.isVehicleState)
    (counted : context.action.actionId ∈ c.endedPublishCountKeys)
    (going : change.actionStatus.isEnded → ∀ other, c.agv.cancelOrderContext = some other →
      other.action.actionId ≠ context.action.actionId) :
    Tagged (c.updateActionStatus context change) := by
  obtain ⟨currentState, nextErrorRef, agv, -⟩ :=
    Config.reportActionStatus_agv c context change vehicle
  have reported : Tagged (c.reportActionStatus context change) := by
    refine ⟨tagged.tags.report instant vehicle counted, ?_⟩
    rw [agv]
    intro other active
    exact (tagged.canceling other active).report vehicle fun isEnded => going isEnded other active
  unfold Config.updateActionStatus
  simp only [instant]
  split
  · exact reported
  · unfold Config.instantActionEnded
    have spliced : ∀ frames : List Frame,
        (∀ frame ∈ frames, ∀ action ∈ frame.dispatched,
          action ∈ (c.reportActionStatus context change).agv.currentInstantActions) →
        Tagged (((c.reportActionStatus context change).dequeue (Config.spliceAction
          (c.reportActionStatus context change).agv.currentInstantActions context.action)).call
            frames) := by
      intro frames queued
      refine reported.change rfl (fun _ => id) rfl rfl ?_ ?_ (fun _ => .inl) fun _ => id
      · intro action member
        exact spliceAction_subset _ _ member
      · intro frame member
        rcases List.mem_append.mp member with pushed | member
        · exact .inr (queued frame pushed)
        · exact .inl member
    simp only
    split
    · exact spliced [_] (by simp [Frame.dispatched])
    · split
      · exact spliced [] (by simp)
      · next nextHardAction found =>
        split
        · refine spliced [_] ?_
          simp only [List.mem_singleton, forall_eq, Frame.dispatched, Option.mem_def,
            Option.some.injEq]
          exact fun action same =>
            same ▸ mem_of_getHardBlockingActionAfterParallelActions found
        · exact spliced [] (by simp)

/-! ## Dispatch -/

/-- An accepted action is counted from its dispatch on. -/
theorem dispatch (tagged : Tagged c) (action : Action) :
    Tagged ((c.observe (.instantActionProcessed (some action))).resetEndedPublishCount action) ∧
      action.actionId ∈ Config.endedPublishCountKeys
        ((c.observe (.instantActionProcessed (some action))).resetEndedPublishCount action) := by
  have keys : ∀ id, id ∈ Config.endedPublishCountKeys
      ((c.observe (.instantActionProcessed (some action))).resetEndedPublishCount action) ↔
        id = action.actionId ∨ id ∈ c.endedPublishCountKeys := fun id => mem_keys_setEntry
  refine ⟨tagged.change rfl (fun id known => (keys id).mpr (.inr known)) ?_ ?_ (fun _ => id)
    (fun _ => .inl) (fun _ => .inl) fun _ => id, (keys _).mpr (.inl rfl)⟩
  · simp [Config.observe, Config.resetEndedPublishCount, acceptedInstantActions]
  · simp [Config.observe, Config.resetEndedPublishCount, endedInstantActions]

/-- An order is canceled on behalf of a counted action. -/
theorem cancelOrder (tagged : Tagged c) {context : ActionContext}
    (unique : (c.agv.currentState.actionStates.map (·.actionId)).Nodup)
    (instant : context.scope = .instant) (cancels : context.action.actionType = "cancelOrder")
    (accepted : context.action ∈ acceptedInstantActions c.log)
    (counted : context.action.actionId ∈ c.endedPublishCountKeys) :
    Tagged (c.cancelOrder context) := by
  let started :=
    (c.observe (.cancelOrder context c.agv.hasActiveOrder c.agv.hasCancelingOrder)).startCancelation
      context
  -- only states of order actions are changed
  have kept : ∀ state ∈ started.agv.currentState.actionStates, state.actionId ∈ c.instantIds →
      state ∈ c.agv.currentState.actionStates := by
    intro state member known
    obtain ⟨original, included, rfl⟩ := List.mem_map.mp member
    rw [Config.failWaitingAction_actionId] at known
    have count := tagged.tags.counted original included known
    have same : Config.failWaitingAction { c.agv with cancelOrderContext := some context }
        original = original :=
      Config.failWaitingAction_of_counted (Config.isInstantActionState_iff.mpr count)
    exact same.symm ▸ included
  have log : started.log =
      c.log ++ [.cancelOrder context c.agv.hasActiveOrder c.agv.hasCancelingOrder] := rfl
  have tags : InstantTags started := by
    refine tagged.tags.change kept (fun _ => id) ?_ ?_ (fun _ => id) (fun _ => .inl) ?_
    · simp [log, acceptedInstantActions]
    · simp [log, endedInstantActions]
    · intro action member
      rcases List.mem_append.mp member with executed | active
      · exact .inl (List.mem_append_left _ executed)
      · obtain rfl : action = context.action := List.mem_singleton.mp active
        exact .inr ⟨accepted, counted⟩
  obtain ⟨currentState, nextErrorRef, agv, states, -⟩ :=
    Config.reportActionStatus_agv started context { actionStatus := .running }
      PartialState.isVehicleState_empty
  have ids : started.agv.currentState.actionStates.map (·.actionId) =
      c.agv.currentState.actionStates.map (·.actionId) := by
    simp [started, Config.startCancelation, Config.failWaitingActions, Config.observe]
  have reported : Tagged (started.reportActionStatus context { actionStatus := .running }) := by
    refine ⟨tags.report instant PartialState.isVehicleState_empty counted, ?_⟩
    rw [agv]
    rintro other ⟨⟩
    refine ⟨cancels, ?_, ?_⟩
    · simp only [Config.endedPublishCountKeys, agv]
      exact counted
    · simp only [agv, states]
      intro state member same
      rcases (mem_newActionStates_iff (ids ▸ unique)).mp member with rfl | ⟨-, different⟩
      · rfl
      · exact absurd same different
  rw [Config.cancelOrder_eq]
  refine reported.change rfl (fun _ => id) rfl rfl (fun _ => id) ?_ (fun _ => .inl) fun _ => id
  intro frame member
  rcases List.mem_append.mp member with pushed | member
  · obtain rfl := List.mem_singleton.mp pushed
    exact .inr (by simp [Frame.dispatched])
  · exact .inl member

/-- The dispatch of an action throws. -/
theorem throwTypeError (tagged : Tagged c) (action : Option Action) :
    Tagged (c.observe (.instantActionProcessed action)).throwTypeError := by
  refine tagged.change rfl (fun _ => id) ?_ ?_ (fun _ => id) (by simp [Config.throwTypeError])
    (fun _ => .inl) fun _ => id
  · simp [Config.observe, Config.throwTypeError, acceptedInstantActions]
  · simp [Config.observe, Config.throwTypeError, endedInstantActions]

theorem processInstantAction (tagged : Tagged c) (distinct : c.DistinctIds)
    (unique : (c.agv.currentState.actionStates.map (·.actionId)).Nodup) {action : Option Action}
    (accepted : ∀ next, action = some next → next ∈ acceptedInstantActions c.log)
    (stopDriving : Bool) : Tagged (c.processInstantAction action stopDriving) := by
  unfold Config.processInstantAction
  cases action with
  | none => exact tagged.throwTypeError none
  | some action =>
      obtain ⟨counting, counted⟩ := tagged.dispatch action
      have accepted := accepted action rfl
      have log : acceptedInstantActions
          ((c.observe (.instantActionProcessed (some action))).resetEndedPublishCount action).log =
            acceptedInstantActions c.log := by
        simp [Config.observe, Config.resetEndedPublishCount, acceptedInstantActions]
      simp only
      split
      · exact tagged.throwTypeError (some action)
      split
      · next request =>
        refine counting.updateActionStatus rfl PartialState.isVehicleState_empty counted ?_
        intro _ other active same
        -- the action of the cancelation is another one, as its type shows
        have cancels := (tagged.canceling other active).cancels
        have equal : other.action = action := distinct.accepted_injective
          (tagged.tags.held _ (mem_held_of_canceling active)) accepted same
        rw [equal, request] at cancels
        simp at cancels
      · split
        · next cancels =>
          exact counting.cancelOrder unique rfl cancels (log ▸ accepted) counted
        · refine counting.change rfl (fun _ => id) ?_ ?_ (fun _ => id) ?_ ?_ fun _ => id
          · simp [Config.executeInstantAction, Config.call, Config.observe, acceptedInstantActions]
          · simp [Config.executeInstantAction, Config.call, Config.observe, endedInstantActions]
          · intro frame member
            rcases List.mem_cons.mp member with rfl | member
            · exact .inr (by simp [Frame.dispatched])
            · exact .inl member
          · intro other member
            have split : other = action ∨ other ∈ c.heldInstantActions := by
              simpa [Config.executeInstantAction, Config.heldInstantActions, Config.call,
                Config.observe, Config.instantActionContext, Config.resetEndedPublishCount,
                or_assoc] using member
            rcases split with rfl | old
            · exact .inr ⟨log ▸ accepted, counted⟩
            · exact .inl old

/-- Accepted instant actions have no states. -/
theorem processInstantActions (tagged : Tagged c) (valid : c.Provenant)
    {message : InstantActions} {adapter : AdapterAnswers}
    (fresh : DistinctActionIds c (.instantActions message adapter)) :
    Tagged (c.processInstantActions message adapter) := by
  obtain ⟨accepted, agv, published, inFlight, observations, same,
    ⟨errors, counts, nextErrorRef, rfl⟩, sub, queued, kinds⟩ :=
    Config.acceptInstantActions_eq c adapter message.actions
  have none : endedInstantActions observations = [] := by
    refine List.filterMap_eq_nil_iff.mpr fun observation member => ?_
    rcases kinds observation member with ⟨action, rfl⟩ | ⟨action, rfl⟩ <;> rfl
  have accepted' : Tagged (c.acceptInstantActions adapter message.actions) := by
    have grown : acceptedInstantActions (c.acceptInstantActions adapter message.actions).log =
        acceptedInstantActions c.log ++ accepted := by simp [same, queued]
    have ended : endedInstantActions (c.acceptInstantActions adapter message.actions).log =
        endedInstantActions c.log := by simp [same, none]
    have old : ∀ state ∈ c.agv.currentState.actionStates,
        state.actionId ∈ (c.acceptInstantActions adapter message.actions).instantIds →
        state.actionId ∈ c.instantIds := by
      rw [Config.instantIds, grown, actionIds, List.map_append]
      intro state member instant
      rcases List.mem_append.mp instant with instant | new
      · exact instant
      · obtain ⟨notOrder, notInstant⟩ := fresh.2 _ ((sub.map _).subset new)
        rcases Provenance.actionStates valid state member with order | instant
        · exact absurd order notOrder
        · exact absurd instant notInstant
    rw [same] at grown ended old ⊢
    refine ⟨⟨?_, ?_, ?_, ?_, ?_, ?_⟩, ?_⟩
    · rw [grown]
      intro action member
      rcases List.mem_append.mp member with queued | new
      · exact List.mem_append_left _ (tagged.tags.queued action queued)
      · exact List.mem_append_right _ new
    · rw [grown]
      exact fun frame member action dispatched =>
        List.mem_append_left _ (tagged.tags.pending frame member action dispatched)
    · rw [grown]
      exact fun action member => List.mem_append_left _ (tagged.tags.held action member)
    · exact fun state member instant => tagged.tags.counted state member (old state member instant)
    · rw [ended]
      exact fun state member instant =>
        tagged.tags.reported state member (old state member instant)
    · rw [ended]
      exact tagged.tags.held_counted
    · intro context active
      exact { tagged.canceling context active with }
  unfold Config.processInstantActions
  simp only
  split
  · exact tagged.change rfl (fun _ => id) rfl rfl (fun _ => id) (by simp [Config.throwTypeError])
      (fun _ => .inl) fun _ => id
  split
  · exact accepted'
  · refine accepted'.change rfl (fun _ => id) rfl rfl (fun _ => id) ?_ (fun _ => .inl) fun _ => id
    intro frame member
    rcases List.mem_cons.mp member with rfl | member
    · exact .inr (by simp [Frame.dispatched])
    · exact .inl member

/-! ## Steps -/

/-- The adapter reports on an instant action that has not ended. -/
theorem adapterReports (tagged : Tagged c) (consistent : Consistent c) {context : ActionContext}
    {change : ActionStatusChangeInfo} (instant : context.scope = .instant)
    (contract : AdapterContract c (.updateActionStatus context change))
    (going : context.action.actionId ∉ endedInstantActions c.log) :
    Tagged (c.adapterReports context change) := by
  obtain ⟨executed, -, vehicle⟩ := contract
  have member : context.action ∈ c.heldInstantActions :=
    List.mem_append_left _ (List.mem_map_of_mem
      (List.mem_filter.mpr ⟨executed, by simpa using instant⟩))
  have accepted := tagged.tags.held _ member
  have counted : context.action.actionId ∈ c.endedPublishCountKeys :=
    (tagged.tags.held_counted _ member).resolve_left going
  -- actions that are executed by the adapter cancel no order
  have other : ∀ pending, c.agv.cancelOrderContext = some pending →
      pending.action.actionId ≠ context.action.actionId := by
    intro pending active same
    have equal : pending.action = context.action := consistent.distinct.accepted_injective
      (tagged.tags.held _ (mem_held_of_canceling active)) accepted same
    exact Provenance.executed consistent.provenant context executed instant
      (equal ▸ (tagged.canceling pending active).cancels)
  have called : ∀ frames : List Frame, (∀ frame ∈ frames, frame.dispatched = none) →
      Tagged (Config.call
        { c with
          executing :=
            if change.actionStatus.isEnded then c.executing.erase context else c.executing }
        frames) := by
    intro frames none
    refine tagged.change rfl (fun _ => id) rfl rfl (fun _ => id) ?_ ?_ fun _ => id
    · intro frame member
      rcases List.mem_append.mp member with pushed | member
      · exact .inr (by simp [none frame pushed])
      · exact .inl member
    · intro action member
      refine .inl ?_
      rcases List.mem_append.mp member with executing | active
      · obtain ⟨held, included, rfl⟩ := List.mem_map.mp executing
        obtain ⟨included, scope⟩ := List.mem_filter.mp included
        refine List.mem_append_left _ (List.mem_map_of_mem (List.mem_filter.mpr ⟨?_, scope⟩))
        simp only [Config.call] at included
        split at included
        · exact List.mem_of_mem_erase included
        · exact included
      · exact List.mem_append_right _ active
  unfold Config.adapterReports Config.updateActionStatusCallback
  simp only
  split
  · exact (called [.resumePausedNode] (by simp [Frame.dispatched])).updateActionStatus instant
      vehicle counted fun _ => other
  · exact (called [] (by simp)).updateActionStatus instant vehicle counted fun _ => other

theorem stopped (tagged : Tagged c) (valid : c.Provenant) (context : StopTraverseContext) :
    Tagged (c.stopped context) := by
  cases active : c.agv.cancelOrderContext with
  | none =>
      refine tagged.keep (Config.stopped_keepsQueue c context active) ?_
      simp [Config.stopped, active, Config.throwTypeError]
  | some cancelOrderContext =>
      obtain ⟨instant, -⟩ := Provenance.cancelOrderContext valid cancelOrderContext active
      have released : Tagged
          (({ c.observe (.stopped context (some cancelOrderContext)) with
              agv := { c.agv with cancelOrderContext := none } }).updateState
            { nodeStates := some [], edgeStates := some [] } false) := by
        refine tagged.change rfl (fun _ => id) ?_ ?_ (fun _ => id) (fun _ => .inl) ?_ ?_
        · simp [Config.observe, acceptedInstantActions]
        · simp [Config.observe, endedInstantActions]
        · intro action member
          refine .inl (List.mem_append_left _ ?_)
          simpa [Config.heldInstantActions, Config.observe] using member
        · simp
      unfold Config.stopped
      simp only [active]
      refine released.updateActionStatus instant PartialState.isVehicleState_empty
        (tagged.canceling _ active).counted ?_
      simp

/-- No pending call but those on instant actions concerns the cancelation. -/
private theorem resume_cancelOrderContext {frame : Frame} (inert : frame.isInert) :
    (c.resume frame).agv.cancelOrderContext = c.agv.cancelOrderContext := by
  cases frame with
  | cancelOrderActions states hasActionsToBeCanceled =>
      cases states with
      | nil => cases hasActionsToBeCanceled <;> rfl
      | cons state states => exact (Config.cancelOrderAction_silent c _ _ _).cancelOrderContext
  | processInstantActions i stopIndex stopDriving =>
      have done : ¬i < stopIndex := by simpa [Frame.isInert] using inert
      simp only [Config.resume, if_neg done]
  | processInstantActionChunk | processInstantAction => simp [Frame.isInert] at inert
  | _ => exact (Config.resume_keepsCancelation c rfl rfl).context

/-- Every step preserves the tags. -/
theorem perform (tagged : Tagged c) (consistent : Consistent c) {event : Event}
    (environment : Environment c event) (reports : ReportsUntilEnd c event) :
    Tagged (c.perform event) := by
  by_cases upkeep : event.isUpkeep
  · obtain ⟨removed, kept⟩ := Config.perform_upkeep c upkeep environment.1
    obtain ⟨_, _, _, _, agv⟩ := kept.agv
    exact tagged.keep (.of_upkeep kept) (by rw [agv])
  · cases event with
    | order order adapter =>
        exact tagged.keep (Config.processOrder_keepsQueue c environment.2)
          (Config.processOrder_keepsCancelation c consistent.provenant consistent.distinct order
            adapter).context
    | instantActions message adapter =>
        exact tagged.processInstantActions consistent.provenant environment.2
    | updateActionStatus context change =>
        by_cases instant : context.scope = .instant
        · exact tagged.adapterReports consistent instant environment.1 (reports instant)
        · refine tagged.keep (Config.adapterReports_keepsQueue c consistent environment.1 instant) ?_
          rw [Config.perform, Config.adapterReports_order c instant,
            (Config.updateActionStatus_silent _ context change).cancelOrderContext]
          obtain ⟨_, _, agv, -⟩ := Config.reportActionStatus_agv _ context change environment.1.2.2
          rw [agv]
    | edgeTraversed context =>
        exact tagged.keep (Config.edgeTraversed_keepsQueue c context)
          (Config.edgeTraversed_keepsCancelation c context).context
    | stopped context =>
        have called : Tagged { c with stopping := c.stopping.erase context } :=
          tagged.change rfl (fun _ => id) rfl rfl (fun _ => id) (fun _ => .inl) (fun _ => .inl)
            fun _ => id
        have valid : Config.Provenant { c with stopping := c.stopping.erase context } :=
          .of_quiet (.of_log rfl) { consistent.provenant with }
        exact Tagged.stopped called valid context
    | drivingToNextNode nextNode =>
        exact tagged.keep (Config.drivingToNextNode_keepsQueue c nextNode)
          (Config.drivingToNextNode_keepsCancelation c nextNode).context
    | proceed =>
        simp only [Config.perform, Config.proceed]
        split
        · exact tagged
        · next frame rest stack =>
          have popped : Tagged { c with stack := rest } := by
            refine tagged.change rfl (fun _ => id) rfl rfl (fun _ => id) ?_ (fun _ => .inl)
              fun _ => id
            exact fun other member => .inl (stack ▸ List.mem_cons_of_mem _ member)
          have unique := consistent.books.unique
          by_cases inert : frame.isInert
          · exact popped.keep (Config.resume_keepsQueue _ inert) (resume_cancelOrderContext inert)
          · cases frame with
            | processInstantActionChunk afterAction skipInitialHard =>
                simp only [Config.resume, Config.processInstantActionChunk]
                have called : ∀ frame : Frame,
                    (∀ action ∈ frame.dispatched, action ∈ c.agv.currentInstantActions) →
                    Tagged (Config.call { c with stack := rest } [frame]) := by
                  intro frame queued
                  refine popped.change rfl (fun _ => id) rfl rfl (fun _ => id) ?_ (fun _ => .inl)
                    fun _ => id
                  intro other member
                  rcases List.mem_cons.mp member with rfl | member
                  · exact .inr queued
                  · exact .inl member
                split
                · split
                  · exact called _ fun action found => List.mem_of_getElem? found
                  · exact popped
                · exact called _ (by simp [Frame.dispatched])
            | processInstantActions i stopIndex stopDriving =>
                have going : i < stopIndex := by simpa [Frame.isInert] using inert
                simp only [Config.resume, if_pos going]
                have called : Tagged (Config.call { c with stack := rest }
                    [.processInstantActions (i + 1) stopIndex stopDriving]) := by
                  refine popped.change rfl (fun _ => id) rfl rfl (fun _ => id) ?_ (fun _ => .inl)
                    fun _ => id
                  intro other member
                  rcases List.mem_cons.mp member with rfl | member
                  · exact .inr (by simp [Frame.dispatched])
                  · exact .inl member
                exact called.processInstantAction consistent.distinct unique
                  (fun action found => tagged.tags.queued action (List.mem_of_getElem? found))
                  stopDriving
            | processInstantAction action stopDriving =>
                exact popped.processInstantAction consistent.distinct unique
                  (fun next same => tagged.tags.pending _ (stack ▸ List.mem_cons_self) next same)
                  stopDriving
            | _ => simp [Frame.isInert] at inert
    | _ => exact absurd rfl upkeep

theorem of_run {limit : Nat} {events : List Event}
    (run : ControllerRun ReportsUntilEnd limit events c) : Consistent c ∧ Tagged c :=
  run.invariant (fun c => Consistent c ∧ Tagged c) ⟨.initial limit, .initial limit⟩
    fun invariants environment reports _ =>
      ⟨invariants.1.perform environment, invariants.2.perform invariants.1 environment reports⟩

end Tagged

/-! ## Order and instant action states -/

/-- The states of instant actions and those of order actions are told apart. -/
structure ToldApart (c : Config) : Prop where
  tagged : ∀ state ∈ c.agv.currentState.actionStates,
    state.actionId ∈ c.instantIds ↔ state.actionId ∈ c.endedPublishCountKeys
  owned : ∀ state ∈ c.agv.currentState.actionStates,
    state.actionId ∈ c.orderIds ↔ state.actionId ∉ c.instantIds
  accepted : ∀ order adapter mode, mode ≠ .stitch →
    c.agv.decideOrder adapter (Config.allocateNodes c.received order) = .accept mode →
    (c.perform (.order order adapter)).agv.currentState.actionStates =
      c.agv.currentState.actionStates.filter (·.actionId ∉ c.orderIds) ++ getActionStates order
  hasActiveOrder : c.agv.hasActiveOrder ↔
    c.agv.currentState.nodeStates ≠ [] ∨ c.agv.currentState.edgeStates ≠ [] ∨
      ∃ state ∈ c.agv.currentState.actionStates, state.actionId ∈ c.orderIds ∧
        state.actionStatus.isEnded = false

/-- The acceptance of an order that is not stitched keeps the states of counted actions. -/
private theorem Config.processOrder_actionStates (c : Config) {order : Order}
    {adapter : AdapterAnswers} {mode : AcceptMode} (notStitch : mode ≠ .stitch)
    (decided : c.agv.decideOrder adapter (allocateNodes c.received order) = .accept mode) :
    (c.processOrder order adapter).agv.currentState.actionStates =
      c.agv.getInstantActionStates ++ getActionStates order := by
  have begun := beginOrder_actionStates { c with received := c.received + 1 } adapter.trajectory
    (allocateNodes c.received order) notStitch
  have moved : ∀ {middle next : Config}, OrderMove middle next →
      next.agv.currentState.actionStates = middle.agv.currentState.actionStates := by
    intro middle next move
    obtain ⟨_, _, _, _, _, agv⟩ := move.agv
    rw [agv]
  have states : getActionStates (allocateNodes c.received order) = getActionStates order := by
    simp only [getActionStates, releasedActions_allocateNodes]
  unfold processOrder
  simp only [decided]
  unfold acceptOrder
  rw [states] at begun
  cases mode with
  | new | update =>
      simp only
      split
      · exact begun
      · exact (moved (processNode_move _ _ _)).trans begun
  | stitch => exact absurd rfl notStitch

private theorem ToldApart.of_tagged {c : Config} (consistent : Consistent c) (tagged : Tagged c) :
    ToldApart c := by
  obtain ⟨valid, distinct, -⟩ := consistent
  have tags : ∀ state ∈ c.agv.currentState.actionStates,
      state.actionId ∈ c.instantIds ↔ state.actionId ∈ c.endedPublishCountKeys := by
    intro state member
    refine ⟨tagged.tags.counted state member, fun counted => ?_⟩
    obtain ⟨entry, held, same⟩ := List.mem_map.mp counted
    exact same ▸ Provenance.endedPublishCount valid entry held
  have owned : ∀ state ∈ c.agv.currentState.actionStates,
      state.actionId ∈ c.orderIds ↔ state.actionId ∉ c.instantIds := by
    intro state member
    refine ⟨fun order => distinct.disjoint order, fun notInstant => ?_⟩
    exact (Provenance.actionStates valid state member).resolve_right notInstant
  have told : ∀ state ∈ c.agv.currentState.actionStates,
      c.agv.isInstantActionState state ↔ state.actionId ∉ c.orderIds := by
    intro state member
    rw [Config.isInstantActionState_iff, owned state member, not_not]
    exact (tags state member).symm
  refine ⟨tags, owned, fun order adapter mode notStitch decided => ?_, ?_⟩
  · rw [Config.perform, Config.processOrder_actionStates c notStitch decided,
      getInstantActionStates]
    congr 1
    refine List.filter_congr fun state member => ?_
    rw [Bool.eq_iff_iff, decide_eq_true_iff]
    exact told state member
  · have openActions : (c.agv.currentState.actionStates.any fun state =>
        !c.agv.isInstantActionState state && !state.actionStatus.isEnded) ↔
        ∃ state ∈ c.agv.currentState.actionStates, state.actionId ∈ c.orderIds ∧
          state.actionStatus.isEnded = false := by
      rw [List.any_eq_true]
      refine exists_congr fun state => and_congr_right fun member => ?_
      simp only [Bool.and_eq_true, Bool.not_eq_true', ← Bool.not_eq_true, told state member,
        not_not]
    simp only [AgvController.hasActiveOrder, Bool.or_eq_true, openActions, Bool.not_eq_true',
      List.isEmpty_eq_false_iff, or_assoc]

/-- In every state reached an action state belongs to an instant action if and
only if its publications are counted. So the states of the previous order are
removed when the next one is accepted, and only they keep an order active. -/
theorem actionStates_toldApart {limit : Nat} {events : List Event} {c : Config}
    (run : ControllerRun ReportsUntilEnd limit events c) : ToldApart c := by
  obtain ⟨consistent, tagged⟩ := Tagged.of_run run
  exact .of_tagged consistent tagged

/-- An instant action is executed while an order waits for its first action. -/
theorem actionStates_toldApart_beep :
    ∃ events c, ControllerRun ReportsUntilEnd 5 events c ∧ ToldApart c ∧
      c.agv.currentState.actionStates.map (·.actionId) = ["hold", "beep"] ∧
      c.instantIds = ["beep"] := by
  let hold : Action := { actionId := "hold", actionType := "hold", blockingType := .hard }
  let beep : Action := { actionId := "beep", actionType := "beep", blockingType := .none }
  let context : ActionContext :=
    { action := beep, scope := .instant, stopDriving := some false
      activeOrderId := some "order" }
  obtain ⟨c, run, passed⟩ := ControllerRun.exists_of_execute ReportsUntilEnd 5
    [.order (driveOrder "order" [hold] [] []) {}, .proceed, .proceed, .instantActions ⟨[beep]⟩ {},
      .proceed, .proceed, .proceed, .proceed,
      .updateActionStatus context { actionStatus := .finished }, .published true]
    (fun c => c.agv.currentState.actionStates.map (·.actionId) = ["hold", "beep"] ∧
      c.instantIds = ["beep"]) (by decide)
  exact ⟨_, c, run, actionStates_toldApart run, by simpa using passed⟩

end Vda5050
