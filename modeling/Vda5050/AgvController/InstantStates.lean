import Vda5050.AgvController.InstantDispatch

/-!
# Action states of instant actions

The controller tells the states of instant actions from those of order actions
by the publication counts it keeps. As long as no instant action is dispatched
twice every state of an instant action is counted.
-/

set_option autoImplicit false

namespace Vda5050

open AgvController

/-- The instant action dispatched when the controller proceeds. -/
def Config.nextInstantAction (c : Config) : Option Action :=
  match c.stack with
  | .processInstantAction action _ :: _ => action
  | .processInstantActions i stopIndex _ :: _ =>
      if i < stopIndex then c.agv.currentInstantActions[i]? else none
  | _ => none

/-- The actionIds of the instant actions dispatched so far. -/
def dispatchedInstantActions (log : List Observation) : List String :=
  (processedInstantActions log).filterMap fun action => action.map (·.actionId)

/-- No instant action is dispatched a second time. -/
def DispatchedOnce (c : Config) : Event → Prop
  | .proceed =>
      ∀ action ∈ c.nextInstantAction, action.actionId ∉ dispatchedInstantActions c.log
  | _ => True

instance (c : Config) (event : Event) : Decidable (DispatchedOnce c event) :=
  match event with
  | .proceed =>
      inferInstanceAs (Decidable (∀ action ∈ c.nextInstantAction,
        action.actionId ∉ dispatchedInstantActions c.log))
  | .order .. | .invalidOrder .. | .instantActions .. | .invalidInstantActions ..
  | .updateActionStatus .. | .edgeTraversed _ | .stopped _ | .drivingToNextNode _
  | .updatePartialState .. | .updateErrors .. | .publishTimer | .published _ | .connection _ =>
      isTrue trivial

@[simp] theorem dispatchedInstantActions_append (log observations : List Observation) :
    dispatchedInstantActions (log ++ observations) =
      dispatchedInstantActions log ++ dispatchedInstantActions observations := by
  simp [dispatchedInstantActions]

/-- The action states of instant actions and the actions that will still report. -/
structure InstantStates (c : Config) : Prop where
  counted : ∀ state ∈ c.agv.currentState.actionStates, state.actionId ∈ c.instantIds →
    state.actionId ∈ c.endedPublishCountKeys
  dispatched : ∀ state ∈ c.agv.currentState.actionStates, state.actionId ∈ c.instantIds →
    state.actionId ∈ dispatchedInstantActions c.log
  held_known : ∀ action ∈ c.heldInstantActions, action.actionId ∈ c.instantIds
  held_counted : ∀ action ∈ c.heldInstantActions, action.actionId ∈ c.endedPublishCountKeys
  held_dispatched : ∀ action ∈ c.heldInstantActions,
    action.actionId ∈ dispatchedInstantActions c.log
  held_open : ∀ action ∈ c.heldInstantActions, ∀ state ∈ c.agv.currentState.actionStates,
    state.actionId = action.actionId → state.actionStatus.isEnded = false
  unique : (actionIds c.heldInstantActions).Nodup

theorem Config.isInstantActionState_iff {agv : AgvController} {state : ActionState} :
    agv.isInstantActionState state ↔
      state.actionId ∈ agv.instantActionsEndedPublishCount.map (·.1) := by
  simp [isInstantActionState]

theorem Config.failWaitingAction_of_counted {agv : AgvController} {state : ActionState}
    (counted : agv.isInstantActionState state) : failWaitingAction agv state = state := by
  simp [failWaitingAction, counted]

namespace InstantStates

variable {c next : Config}

theorem initial (limit : Nat) : InstantStates (Config.initial limit) := by
  constructor <;> simp [Config.initial, AgvController.initial, Config.heldInstantActions, actionIds]

/-- Whatever leaves the queue of instant actions alone preserves their states. -/
theorem keep (states : InstantStates c) (kept : KeepsQueue c next) : InstantStates next := by
  obtain ⟨observations, log, off⟩ := kept.log
  obtain ⟨accepted, processed, -⟩ := offQueue_histories off
  have instants : next.instantIds = c.instantIds := by simp [Config.instantIds, log, accepted]
  have dispatched : dispatchedInstantActions next.log = dispatchedInstantActions c.log := by
    simp [dispatchedInstantActions, log, processed]
  obtain ⟨counted, known, held_known, held_counted, held_dispatched, held_open, unique⟩ := states
  constructor
  case counted =>
    rw [instants]
    intro state member instant
    have included := kept.states state member instant
    rcases kept.counted _ instant (counted state included instant) with remains | ⟨-, gone⟩
    · exact remains
    · exact absurd rfl (gone state member)
  case dispatched =>
    rw [instants, dispatched]
    exact fun state member instant => known state (kept.states state member instant) instant
  case held_known =>
    rw [instants, kept.held]
    exact held_known
  case held_counted =>
    rw [kept.held]
    intro action member
    have instant := held_known action member
    rcases kept.counted _ instant (held_counted action member) with remains | ⟨ended, -⟩
    · exact remains
    · obtain ⟨state, included, same, ended⟩ := ended
      simp [held_open action member state included same] at ended
  case held_dispatched =>
    rw [kept.held, dispatched]
    exact held_dispatched
  case held_open =>
    rw [kept.held]
    intro action member state included same
    exact held_open action member state
      (kept.states state included (same ▸ held_known action member)) same
  case unique =>
    rw [kept.held]
    exact unique

/-- A dispatched instant action reports its status. If it has ended it is not held. -/
theorem report {context : ActionContext} {change : ActionStatusChangeInfo}
    (states : InstantStates c)
    (agv : c.agv.Reports (Config.newActionState context change) change.linkedState next.agv)
    (quiet : c.Quiet next) (log : processedInstantActions next.log = processedInstantActions c.log)
    (executing : next.executing = c.executing)
    (counted : context.action.actionId ∈ c.endedPublishCountKeys)
    (dispatched : context.action.actionId ∈ dispatchedInstantActions c.log)
    (open_ : change.actionStatus.isEnded →
      ∀ action ∈ c.heldInstantActions, action.actionId ≠ context.action.actionId) :
    InstantStates next := by
  obtain ⟨currentState, nextErrorRef, agv, reported, -⟩ := agv
  have instants : next.instantIds = c.instantIds := quiet.instantIds
  have same : dispatchedInstantActions next.log = dispatchedInstantActions c.log := by
    simp [dispatchedInstantActions, log]
  have keys : next.endedPublishCountKeys = c.endedPublishCountKeys := by
    simp [Config.endedPublishCountKeys, agv]
  have held : next.heldInstantActions = c.heldInstantActions := by
    simp [Config.heldInstantActions, agv, executing]
  have actionStates : next.agv.currentState.actionStates =
      Config.newActionStates c.agv.currentState.actionStates
        (Config.newActionState context change) := by simp only [agv, reported]
  refine ⟨?_, ?_, by rw [held, instants]; exact states.held_known,
    by rw [held, keys]; exact states.held_counted, by rw [held, same]; exact states.held_dispatched,
    ?_, by rw [held]; exact states.unique⟩
  · rw [actionStates, instants, keys]
    intro state member instant
    rcases mem_newActionStates member with rfl | member
    · exact counted
    · exact states.counted state member instant
  · rw [actionStates, instants, same]
    intro state member instant
    rcases mem_newActionStates member with rfl | member
    · exact dispatched
    · exact states.dispatched state member instant
  · rw [actionStates, held]
    intro action member state included clash
    rcases mem_newActionStates included with rfl | included
    · refine Bool.eq_false_iff.mpr fun ended => ?_
      exact open_ ended action member clash.symm
    · exact states.held_open action member state included clash

/-- Fewer actions are held. -/
theorem release (states : InstantStates c)
    (agv : next.agv.currentState.actionStates = c.agv.currentState.actionStates)
    (keys : next.endedPublishCountKeys = c.endedPublishCountKeys)
    (instants : next.instantIds = c.instantIds)
    (dispatched : dispatchedInstantActions next.log = dispatchedInstantActions c.log)
    (sub : next.heldInstantActions.Sublist c.heldInstantActions) : InstantStates next := by
  refine ⟨by rw [agv, instants, keys]; exact states.counted,
    by rw [agv, instants, dispatched]; exact states.dispatched,
    fun action member => instants ▸ states.held_known action (sub.subset member),
    fun action member => keys ▸ states.held_counted action (sub.subset member),
    fun action member => dispatched ▸ states.held_dispatched action (sub.subset member),
    fun action member => agv ▸ states.held_open action (sub.subset member), ?_⟩
  exact states.unique.sublist (sub.map _)

/-- One more action is held, which has been dispatched and has not ended. -/
theorem hold (states : InstantStates c) {action : Action}
    (after : (action :: c.heldInstantActions).Perm next.heldInstantActions)
    (agv : next.agv.currentState.actionStates = c.agv.currentState.actionStates)
    (keys : next.endedPublishCountKeys = c.endedPublishCountKeys)
    (instants : next.instantIds = c.instantIds)
    (dispatched : dispatchedInstantActions next.log = dispatchedInstantActions c.log)
    (known : action.actionId ∈ c.instantIds) (counted : action.actionId ∈ c.endedPublishCountKeys)
    (started : action.actionId ∈ dispatchedInstantActions c.log)
    (absent : ∀ state ∈ c.agv.currentState.actionStates, state.actionId ≠ action.actionId)
    (fresh : ∀ other ∈ c.heldInstantActions, other.actionId ≠ action.actionId) :
    InstantStates next := by
  have split : ∀ other ∈ next.heldInstantActions,
      other = action ∨ other ∈ c.heldInstantActions := fun other member =>
    List.mem_cons.mp (after.mem_iff.mpr member)
  constructor
  case counted =>
    rw [agv, instants, keys]
    exact states.counted
  case dispatched =>
    rw [agv, instants, dispatched]
    exact states.dispatched
  case held_known =>
    rw [instants]
    intro other member
    rcases split other member with rfl | member
    · exact known
    · exact states.held_known other member
  case held_counted =>
    rw [keys]
    intro other member
    rcases split other member with rfl | member
    · exact counted
    · exact states.held_counted other member
  case held_dispatched =>
    rw [dispatched]
    intro other member
    rcases split other member with rfl | member
    · exact started
    · exact states.held_dispatched other member
  case held_open =>
    rw [agv]
    intro other member state included same
    rcases split other member with rfl | member
    · exact absurd same (absent state included)
    · exact states.held_open other member state included same
  case unique =>
    refine ((after.map _).nodup_iff.mp ?_ : (actionIds next.heldInstantActions).Nodup)
    refine List.nodup_cons.mpr ⟨fun again => ?_, states.unique⟩
    obtain ⟨other, included, same⟩ := List.mem_map.mp again
    exact fresh other included same

end InstantStates

/-! ## Dispatch -/

namespace InstantStates

variable {c next : Config}

private theorem observe_processed (states : InstantStates c) (action : Option Action) :
    InstantStates (c.observe (.instantActionProcessed action)) := by
  have instants : (c.observe (.instantActionProcessed action)).instantIds = c.instantIds := by
    simp [Config.instantIds, Config.observe, acceptedInstantActions]
  have dispatched : dispatchedInstantActions c.log ⊆
      dispatchedInstantActions (c.observe (.instantActionProcessed action)).log := by
    simp [Config.observe]
  exact ⟨by rw [instants]; exact states.counted,
    by rw [instants]; exact fun state member instant =>
      dispatched (states.dispatched state member instant),
    by rw [instants]; exact states.held_known, states.held_counted,
    fun other member => dispatched (states.held_dispatched other member), states.held_open,
    states.unique⟩

/-- The controller starts to count the publications of a dispatched action. -/
theorem dispatch (states : InstantStates c) {action : Action}
    (fresh : action.actionId ∉ dispatchedInstantActions c.log) (known : action.actionId ∈ c.instantIds)
    (same : next = (c.observe (.instantActionProcessed (some action))).resetEndedPublishCount action) :
    InstantStates next ∧ action.actionId ∈ next.instantIds ∧
      action.actionId ∈ next.endedPublishCountKeys ∧
      action.actionId ∈ dispatchedInstantActions next.log ∧
      (∀ state ∈ next.agv.currentState.actionStates, state.actionId ≠ action.actionId) ∧
      ∀ other ∈ next.heldInstantActions, other.actionId ≠ action.actionId := by
  have held : next.heldInstantActions = c.heldInstantActions := same ▸ rfl
  have agv : next.agv.currentState = c.agv.currentState := same ▸ rfl
  have log : next.log = c.log ++ [.instantActionProcessed (some action)] := same ▸ rfl
  have instants : next.instantIds = c.instantIds := by
    simp [Config.instantIds, log, acceptedInstantActions]
  have dispatched : dispatchedInstantActions next.log =
      dispatchedInstantActions c.log ++ [action.actionId] := by
    simp [log, dispatchedInstantActions, processedInstantActions]
  have keys : ∀ id, id ∈ next.endedPublishCountKeys ↔
      id = action.actionId ∨ id ∈ c.endedPublishCountKeys := fun id => by
    subst same
    exact mem_keys_setEntry
  refine ⟨?_, instants ▸ known, (keys _).mpr (.inl rfl), by simp [dispatched], ?_, ?_⟩
  · constructor
    case counted =>
      rw [agv, instants]
      exact fun state member instant => (keys _).mpr (.inr (states.counted state member instant))
    case dispatched =>
      rw [agv, instants, dispatched]
      exact fun state member instant =>
        List.mem_append_left _ (states.dispatched state member instant)
    case held_known =>
      rw [held, instants]
      exact states.held_known
    case held_counted =>
      rw [held]
      exact fun other member => (keys _).mpr (.inr (states.held_counted other member))
    case held_dispatched =>
      rw [held, dispatched]
      exact fun other member => List.mem_append_left _ (states.held_dispatched other member)
    case held_open =>
      rw [held, agv]
      exact states.held_open
    case unique =>
      rw [held]
      exact states.unique
  · rw [agv]
    exact fun state member equal =>
      fresh (equal ▸ states.dispatched state member (by rw [equal]; exact known))
  · rw [held]
    exact fun other member equal => fresh (equal ▸ states.held_dispatched other member)

/-- The end of a dispatched action that is not held any more. -/
theorem updateActionStatus (states : InstantStates c) {context : ActionContext}
    {change : ActionStatusChangeInfo} (instant : context.scope = .instant)
    (vehicle : change.linkedState.isVehicleState)
    (counted : context.action.actionId ∈ c.endedPublishCountKeys)
    (dispatched : context.action.actionId ∈ dispatchedInstantActions c.log)
    (open_ : change.actionStatus.isEnded →
      ∀ action ∈ c.heldInstantActions, action.actionId ≠ context.action.actionId) :
    InstantStates (c.updateActionStatus context change) := by
  have reported : InstantStates (c.reportActionStatus context change) :=
    states.report (Config.reportActionStatus_agv c context change vehicle)
      (Config.reportActionStatus_quiet c context change) (by simp [processedInstantActions])
      (Config.reportActionStatus_executing c context change) counted dispatched open_
  unfold Config.updateActionStatus
  simp only [instant]
  split
  · exact reported
  · obtain ⟨frames, same, -⟩ :=
      Config.instantActionEnded_eq (c.reportActionStatus context change) context.action
    rw [same]
    exact reported.release rfl rfl rfl rfl (.refl _)

/-- The cancelation is done on behalf of the dispatched action only. -/
theorem startCancelation (states : InstantStates c) {context : ActionContext}
    (known : context.action.actionId ∈ c.instantIds)
    (counted : context.action.actionId ∈ c.endedPublishCountKeys)
    (dispatched : context.action.actionId ∈ dispatchedInstantActions c.log)
    (absent : ∀ state ∈ c.agv.currentState.actionStates, state.actionId ≠ context.action.actionId)
    (fresh : ∀ other ∈ c.heldInstantActions, other.actionId ≠ context.action.actionId) :
    InstantStates (c.startCancelation context) := by
  have released : InstantStates { c with agv := { c.agv with cancelOrderContext := none } } :=
    states.release rfl rfl rfl rfl (by simp [Config.heldInstantActions])
  have held : InstantStates
      { c with agv := { c.agv with cancelOrderContext := some context } } := by
    refine released.hold ?_ rfl rfl rfl rfl known counted dispatched absent ?_
    · simpa [Config.heldInstantActions] using List.perm_append_singleton _ _ |>.symm
    · exact fun other member => fresh other (by
        simp only [Config.heldInstantActions, Option.map_none, Option.toList_none,
          List.append_nil] at member
        exact List.mem_append_left _ member)
  -- only states of order actions are changed
  have kept : ∀ state ∈ (c.startCancelation context).agv.currentState.actionStates,
      state.actionId ∈ c.instantIds → state ∈ c.agv.currentState.actionStates := by
    intro state member instant
    obtain ⟨original, included, rfl⟩ := List.mem_map.mp member
    rw [Config.failWaitingAction_actionId] at instant
    have count : original.actionId ∈ c.endedPublishCountKeys :=
      states.counted original included instant
    have same : Config.failWaitingAction { c.agv with cancelOrderContext := some context }
        original = original :=
      Config.failWaitingAction_of_counted (Config.isInstantActionState_iff.mpr count)
    rw [same]
    exact included
  exact ⟨fun state member instant => held.counted state (kept state member instant) instant,
    fun state member instant => held.dispatched state (kept state member instant) instant,
    held.held_known, held.held_counted, held.held_dispatched,
    fun action member state included same => held.held_open action member state
      (kept state included (same ▸ held.held_known action member)) same, held.unique⟩

theorem cancelOrder (states : InstantStates c) {context : ActionContext}
    (instant : context.scope = .instant) (known : context.action.actionId ∈ c.instantIds)
    (counted : context.action.actionId ∈ c.endedPublishCountKeys)
    (dispatched : context.action.actionId ∈ dispatchedInstantActions c.log)
    (absent : ∀ state ∈ c.agv.currentState.actionStates, state.actionId ≠ context.action.actionId)
    (fresh : ∀ other ∈ c.heldInstantActions, other.actionId ≠ context.action.actionId) :
    InstantStates (c.cancelOrder context) := by
  have observed : InstantStates
      (c.observe (.cancelOrder context c.agv.hasActiveOrder c.agv.hasCancelingOrder)) :=
    states.release rfl rfl (by simp [Config.instantIds, Config.observe, acceptedInstantActions])
      (by simp [Config.observe, dispatchedInstantActions, processedInstantActions]) (.refl _)
  have known' : context.action.actionId ∈
      (c.observe (.cancelOrder context c.agv.hasActiveOrder c.agv.hasCancelingOrder)).instantIds := by
    simpa [Config.instantIds, Config.observe, acceptedInstantActions] using known
  have dispatched' : context.action.actionId ∈ dispatchedInstantActions
      (c.observe (.cancelOrder context c.agv.hasActiveOrder c.agv.hasCancelingOrder)).log := by
    simp [Config.observe, dispatched]
  have started := observed.startCancelation known' counted dispatched' absent fresh
  have reported : InstantStates
      (Config.updateActionStatus _ context { actionStatus := .running }) :=
    started.updateActionStatus instant PartialState.isVehicleState_empty counted dispatched'
      (by simp [ActionStatus.isEnded])
  exact InstantStates.release reported rfl rfl rfl rfl (.refl _)

/-- The next instant action is dispatched. -/
theorem processInstantAction (states : InstantStates c) {action : Option Action}
    (known : ∀ next, action = some next → next.actionId ∈ c.instantIds)
    (fresh : ∀ next, action = some next → next.actionId ∉ dispatchedInstantActions c.log)
    (stopDriving : Bool) : InstantStates (c.processInstantAction action stopDriving) := by
  unfold Config.processInstantAction
  cases action with
  | none => exact (states.observe_processed none).release rfl rfl rfl rfl (.refl _)
  | some action =>
      obtain ⟨counting, known, counted, dispatched, absent, other⟩ :=
        states.dispatch (fresh action rfl) (known action rfl) rfl
      simp only
      split
      · exact (states.observe_processed (some action)).release rfl rfl rfl rfl (.refl _)
      split
      · exact counting.updateActionStatus rfl PartialState.isVehicleState_empty counted dispatched
          fun _ => other
      · split
        · exact counting.cancelOrder rfl known counted dispatched absent other
        · refine counting.hold ?_ rfl rfl ?_ ?_ known counted dispatched absent other
          · simp [Config.executeInstantAction, Config.heldInstantActions, Config.call,
              Config.observe, Config.instantActionContext]
          · simp [Config.executeInstantAction, Config.call, Config.observe, Config.instantIds,
              acceptedInstantActions]
          · simp [Config.executeInstantAction, Config.call, Config.observe,
              dispatchedInstantActions, processedInstantActions]

/-- Accepted instant actions have no states. -/
theorem processInstantActions (states : InstantStates c) (valid : c.Provenant)
    {message : InstantActions} {adapter : AdapterAnswers}
    (fresh : DistinctActionIds c (.instantActions message adapter)) :
    InstantStates (c.processInstantActions message adapter) := by
  obtain ⟨accepted, agv, published, inFlight, observations, same,
    ⟨errors, counts, nextErrorRef, rfl⟩, sub, queued, kinds⟩ :=
    Config.acceptInstantActions_eq c adapter message.actions
  have processed : processedInstantActions observations = [] := by
    refine List.filterMap_eq_nil_iff.mpr fun observation member => ?_
    rcases kinds observation member with ⟨action, rfl⟩ | ⟨action, rfl⟩ <;> rfl
  have accepted' : InstantStates (c.acceptInstantActions adapter message.actions) := by
    have instants : (c.acceptInstantActions adapter message.actions).instantIds =
        c.instantIds ++ actionIds accepted := by
      simp [same, Config.instantIds, queued, actionIds]
    have dispatched : dispatchedInstantActions (c.acceptInstantActions adapter message.actions).log =
        dispatchedInstantActions c.log := by
      simp [same, dispatchedInstantActions, processed]
    have old : ∀ state ∈ c.agv.currentState.actionStates,
        state.actionId ∈ (c.acceptInstantActions adapter message.actions).instantIds →
        state.actionId ∈ c.instantIds := by
      rw [instants]
      intro state member instant
      rcases List.mem_append.mp instant with instant | new
      · exact instant
      · obtain ⟨notOrder, notInstant⟩ := fresh.2 _ ((sub.map _).subset new)
        rcases Provenance.actionStates valid state member with order | instant
        · exact absurd order notOrder
        · exact absurd instant notInstant
    rw [same] at instants dispatched old ⊢
    exact ⟨fun state member instant => states.counted state member (old state member instant),
      fun state member instant =>
        dispatched ▸ states.dispatched state member (old state member instant),
      fun action member => instants ▸ List.mem_append_left _ (states.held_known action member),
      states.held_counted, fun action member => dispatched ▸ states.held_dispatched action member,
      states.held_open, states.unique⟩
  unfold Config.processInstantActions
  simp only
  split
  · exact states.release rfl rfl rfl rfl (.refl _)
  split
  · exact accepted'
  · exact accepted'.release rfl rfl rfl rfl (.refl _)

theorem adapterReports (states : InstantStates c) (consistent : Consistent c)
    {context : ActionContext} {change : ActionStatusChangeInfo}
    (contract : AdapterContract c (.updateActionStatus context change)) :
    InstantStates (c.adapterReports context change) := by
  by_cases instant : context.scope = .instant
  · obtain ⟨held, -, vehicle⟩ := contract
    have member : context.action ∈ c.heldInstantActions :=
      List.mem_append_left _ (List.mem_map_of_mem
        (List.mem_filter.mpr ⟨held, by simpa using instant⟩))
    obtain ⟨sub, others⟩ := Config.heldInstantActions_erase states.unique held instant
    have report : ∀ frames, InstantStates
        ((Config.call
          { c with
            executing :=
              if change.actionStatus.isEnded then c.executing.erase context else c.executing }
          frames).updateActionStatus context change) := by
      intro frames
      have known := states.held_counted _ member
      have dispatched := states.held_dispatched _ member
      cases ended : change.actionStatus.isEnded with
      | true =>
          have released : InstantStates (Config.call
              { c with executing := c.executing.erase context } frames) :=
            states.release rfl rfl rfl rfl sub
          exact released.updateActionStatus instant vehicle known dispatched fun _ => others
      | false =>
          have released : InstantStates (Config.call { c with executing := c.executing } frames) :=
            states.release rfl rfl rfl rfl (.refl _)
          refine released.updateActionStatus instant vehicle known dispatched ?_
          simp [ended]
    unfold Config.adapterReports Config.updateActionStatusCallback
    simp only
    split
    · exact report [.resumePausedNode]
    · exact report []
  · exact states.keep (Config.adapterReports_keepsQueue c consistent contract instant)

theorem stopped (states : InstantStates c) (valid : c.Provenant) (context : StopTraverseContext) :
    InstantStates (c.stopped context) := by
  cases pending : c.agv.cancelOrderContext with
  | none => exact states.keep (Config.stopped_keepsQueue c context pending)
  | some cancelOrderContext =>
      obtain ⟨instant, -⟩ := Provenance.cancelOrderContext valid cancelOrderContext pending
      have whole : c.heldInstantActions =
          (c.executing.filter (·.scope = .instant)).map (·.action) ++
            [cancelOrderContext.action] := by
        simp [Config.heldInstantActions, pending]
      have member : cancelOrderContext.action ∈ c.heldInstantActions := by simp [whole]
      have unique := states.unique
      rw [whole, actionIds, List.map_append, List.nodup_append] at unique
      have released : InstantStates
          (({ c.observe (.stopped context (some cancelOrderContext)) with
              agv := { c.agv with cancelOrderContext := none } }).updateState
            { nodeStates := some [], edgeStates := some [] } false) := by
        refine states.release rfl rfl ?_ ?_ ?_
        · simp [Config.instantIds, Config.observe, acceptedInstantActions]
        · simp [Config.observe, dispatchedInstantActions, processedInstantActions]
        · rw [whole]
          simp [Config.heldInstantActions, Config.observe]
      unfold Config.stopped
      simp only [pending]
      refine released.updateActionStatus instant PartialState.isVehicleState_empty
        (states.held_counted _ member) ?_ fun _ other included same => ?_
      · simpa [Config.observe, dispatchedInstantActions, processedInstantActions]
          using states.held_dispatched _ member
      · simp only [Config.heldInstantActions, Config.updateState_executing, Config.updateState_agv,
          Config.observe, Option.map_none, Option.toList_none, List.append_nil] at included
        exact unique.2.2 _ (List.mem_map_of_mem included) _ (by simp) same

/-- Every step that dispatches no instant action twice keeps the states counted. -/
theorem perform (states : InstantStates c) (consistent : Consistent c) {event : Event}
    (environment : Environment c event) (once : DispatchedOnce c event) :
    InstantStates (c.perform event) := by
  by_cases upkeep : event.isUpkeep
  · obtain ⟨removed, kept⟩ := Config.perform_upkeep c upkeep environment.1
    exact states.keep (.of_upkeep kept)
  · cases event with
    | order order adapter => exact states.keep (Config.processOrder_keepsQueue c environment.2)
    | instantActions message adapter =>
        exact states.processInstantActions consistent.provenant environment.2
    | updateActionStatus context change => exact states.adapterReports consistent environment.1
    | edgeTraversed context => exact states.keep (Config.edgeTraversed_keepsQueue c context)
    | stopped context =>
        have called : InstantStates { c with stopping := c.stopping.erase context } :=
          states.release rfl rfl rfl rfl (.refl _)
        have valid : Config.Provenant { c with stopping := c.stopping.erase context } :=
          .of_quiet (.of_log rfl) { consistent.provenant with }
        exact InstantStates.stopped called valid context
    | drivingToNextNode nextNode => exact states.keep (Config.drivingToNextNode_keepsQueue c nextNode)
    | proceed =>
        simp only [Config.perform, Config.proceed]
        split
        · exact states
        · next frame rest stack =>
          have popped : InstantStates { c with stack := rest } :=
            states.release rfl rfl rfl rfl (.refl _)
          have queued : ∀ action, action ∈ c.agv.currentInstantActions →
              action.actionId ∈ c.instantIds :=
            fun action member => Provenance.instantActions consistent.provenant action member
          by_cases inert : frame.isInert
          · exact popped.keep (Config.resume_keepsQueue _ inert)
          · cases frame with
            | processInstantActionChunk afterAction skipInitialHard =>
                refine popped.release ?_ ?_ ?_ ?_ ?_
                all_goals
                  simp only [Config.resume, Config.processInstantActionChunk]
                  split
                  · split <;> rfl
                  · rfl
            | processInstantActions i stopIndex stopDriving =>
                have going : i < stopIndex := by simpa [Frame.isInert] using inert
                simp only [Config.resume, if_pos going]
                have called : InstantStates (Config.call { c with stack := rest }
                    [.processInstantActions (i + 1) stopIndex stopDriving]) :=
                  states.release rfl rfl rfl rfl (.refl _)
                refine called.processInstantAction (fun action found => ?_) (fun action found => ?_)
                  stopDriving
                · exact queued action (List.mem_of_getElem? found)
                · refine once action ?_
                  simp only [Config.nextInstantAction, stack, if_pos going]
                  exact found
            | processInstantAction action stopDriving =>
                refine popped.processInstantAction (fun next same => ?_) (fun next same => ?_)
                  stopDriving
                · subst same
                  exact Provenance.stack consistent.provenant
                    (.processInstantAction (some next) stopDriving) (by simp [stack])
                · refine once next ?_
                  simp only [Config.nextInstantAction, stack, same, Option.mem_def]
            | _ => simp [Frame.isInert] at inert
    | _ => exact absurd rfl upkeep

end InstantStates

end Vda5050
