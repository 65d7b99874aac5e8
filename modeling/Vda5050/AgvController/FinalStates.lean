import Vda5050.AgvController.ActionStateReports
import Vda5050.AgvController.Publications

/-!
# Final states of instant actions

The state of an instant action that has ended is removed when it has been
published a fixed number of times, as long as every publication that completes
contains the final states there are by then.
-/

set_option autoImplicit false

namespace Vda5050

open Library AgvController

/-! ## Counts and deliveries -/

/-- The count of an instant action tells how often its final state has been
delivered. A final state that has been published stays as long as it is counted. -/
structure CountsFinalStates (limit : Nat) (deliveries : ActionState → Nat) (c : Config) : Prop where
  sameLimit : c.agv.finalInstantActionStateChangePublishCount = limit
  below : ∀ entry ∈ c.agv.instantActionsEndedPublishCount, entry.2 < limit
  ended : ∀ entry ∈ c.agv.instantActionsEndedPublishCount,
    ∀ state ∈ c.agv.currentState.actionStates, state.actionId = entry.1 →
      state.actionStatus.isEnded → entry.2 = deliveries state
  going : ∀ entry ∈ c.agv.instantActionsEndedPublishCount,
    (∀ state ∈ c.agv.currentState.actionStates, state.actionId = entry.1 →
      state.actionStatus.isEnded = false) → entry.2 = 0
  known : ∀ published ∈ c.published, ∀ state ∈ published.actionStates,
    state.actionId ∈ c.orderIds ∨ state.actionId ∈ dispatchedInstantActions c.log
  final : ∀ published ∈ c.published, ∀ state ∈ published.actionStates,
    state.actionId ∈ c.endedPublishCountKeys → state.actionStatus.isEnded →
      state ∈ c.agv.currentState.actionStates
  delivered : ∀ state, deliveries state ≠ 0 →
    ∃ published ∈ c.published, state ∈ published.actionStates

namespace CountsFinalStates

variable {limit : Nat} {deliveries : ActionState → Nat} {c next : Config}

/-- Actions are reported, but none that has ended. -/
theorem lists (counts : CountsFinalStates limit deliveries c) {reported : Option String}
    (lists : ListsActionStates reported c next)
    (open_ : ∀ id ∈ reported, ∀ state ∈ c.agv.currentState.actionStates, state.actionId = id →
      id ∈ c.endedPublishCountKeys → state.actionStatus.isEnded = false)
    (orders : c.orderIds ⊆ next.orderIds)
    (dispatched : dispatchedInstantActions c.log ⊆ dispatchedInstantActions next.log)
    (known : ∀ state ∈ next.agv.currentState.actionStates,
      state.actionId ∈ next.orderIds ∨ state.actionId ∈ dispatchedInstantActions next.log) :
    CountsFinalStates limit deliveries next := by
  obtain ⟨states, published, same⟩ := lists.published
  have keys : next.endedPublishCountKeys = c.endedPublishCountKeys := by
    rw [Config.endedPublishCountKeys, lists.counts]
    rfl
  have key : ∀ entry ∈ c.agv.instantActionsEndedPublishCount, entry.1 ∈ c.endedPublishCountKeys :=
    fun entry => List.mem_map_of_mem
  -- an action that is reported has not been counted so far
  have zero : ∀ entry ∈ c.agv.instantActionsEndedPublishCount, entry.1 ∈ reported →
      entry.2 = 0 := fun entry member isReported =>
    counts.going entry member fun state included equal =>
      open_ entry.1 isReported state included equal (key entry member)
  constructor
  case sameLimit => exact lists.limit.trans counts.sameLimit
  case below => exact lists.counts ▸ counts.below
  case ended =>
    rw [lists.counts]
    intro entry member state included equal isEnded
    have counted : state.actionId ∈ c.endedPublishCountKeys := equal ▸ key entry member
    by_cases isReported : entry.1 ∈ reported
    · rw [zero entry member isReported]
      by_contra delivered
      obtain ⟨earlier, before, listed⟩ := counts.delivered state (Ne.symm delivered)
      have current := counts.final earlier before state listed counted isEnded
      simp [open_ entry.1 isReported state current equal (key entry member)] at isEnded
    · have old := (lists.stays state counted (equal ▸ isReported)).mp included
      exact counts.ended entry member state old equal isEnded
  case going =>
    rw [lists.counts]
    intro entry member none
    by_cases isReported : entry.1 ∈ reported
    · exact zero entry member isReported
    · refine counts.going entry member fun state included equal => none state ?_ equal
      exact (lists.stays state (equal ▸ key entry member) (equal ▸ isReported)).mpr included
  case known =>
    rw [published]
    intro sent member state listed
    rcases List.mem_append.mp member with old | new
    · exact (counts.known sent old state listed).imp (@orders _) (@dispatched _)
    · exact known state (same sent new ▸ listed)
  case final =>
    rw [published, keys]
    intro sent member state listed counted isEnded
    rcases List.mem_append.mp member with old | new
    · have current := counts.final sent old state listed counted isEnded
      refine (lists.stays state counted fun isReported => ?_).mpr current
      simp [open_ _ isReported state current rfl counted] at isEnded
    · exact same sent new ▸ listed
  case delivered =>
    intro state positive
    obtain ⟨sent, member, listed⟩ := counts.delivered state positive
    exact ⟨sent, published ▸ List.mem_append_left _ member, listed⟩

/-- An instant action that is dispatched for the first time has not been reported. -/
theorem dispatch (counts : CountsFinalStates limit deliveries c) (positive : 0 < limit)
    {action : Action} (fresh : action.actionId ∉ dispatchedInstantActions c.log)
    (foreign : action.actionId ∉ c.orderIds)
    (absent : ∀ state ∈ c.agv.currentState.actionStates, state.actionId ≠ action.actionId) :
    CountsFinalStates limit deliveries
      ((c.observe (.instantActionProcessed (some action))).resetEndedPublishCount action) := by
  let next := (c.observe (.instantActionProcessed (some action))).resetEndedPublishCount action
  have orders : next.orderIds = c.orderIds := by
    simp [next, Config.orderIds, Config.observe, Config.resetEndedPublishCount,
      acceptedOrderActions]
  have dispatched : dispatchedInstantActions next.log =
      dispatchedInstantActions c.log ++ [action.actionId] := by
    simp [next, Config.observe, Config.resetEndedPublishCount, dispatchedInstantActions,
      processedInstantActions]
  constructor
  case sameLimit => exact counts.sameLimit
  case below =>
    intro entry member
    rcases mem_setEntry member with rfl | old
    · exact positive
    · exact counts.below entry old
  case ended =>
    intro entry member state included equal isEnded
    rcases mem_setEntry member with rfl | old
    · exact absurd equal (absent state included)
    · exact counts.ended entry old state included equal isEnded
  case going =>
    intro entry member none
    rcases mem_setEntry member with rfl | old
    · rfl
    · exact counts.going entry old none
  case known =>
    rw [orders, dispatched]
    exact fun sent member state listed =>
      (counts.known sent member state listed).imp_right (List.mem_append_left _)
  case final =>
    intro sent member state listed counted isEnded
    rcases mem_keys_setEntry.mp counted with equal | old
    · rcases counts.known sent member state listed with order | earlier
      · exact absurd (equal ▸ order) foreign
      · exact absurd (equal ▸ earlier) fresh
    · exact counts.final sent member state listed old isEnded
  case delivered => exact counts.delivered

end CountsFinalStates

/-! ## Completed publications -/

namespace Config

variable {c : Config}

/-- The counted action is listed as ended. -/
def HasEnded (c : Config) (id : String) : Prop :=
  ∃ state ∈ c.agv.currentState.actionStates, state.actionId = id ∧ state.actionStatus.isEnded

private theorem find?_any_isEnded_iff
    (unique : (c.agv.currentState.actionStates.map (·.actionId)).Nodup) (id : String) :
    (c.agv.currentState.actionStates.find? (·.actionId = id)).any (·.actionStatus.isEnded) ↔
      c.HasEnded id := by
  rw [Option.any_eq_true]
  constructor
  · rintro ⟨state, found, isEnded⟩
    exact ⟨state, List.mem_of_find?_eq_some found, by simpa using List.find?_some found, isEnded⟩
  · rintro ⟨state, member, same, isEnded⟩
    cases found : c.agv.currentState.actionStates.find? (·.actionId = id) with
    | none =>
        have absent := List.find?_eq_none.mp found state member
        simp [same] at absent
    | some other =>
        have equal : other.actionId = id := by simpa using List.find?_some found
        have first := Library.eq_of_key ActionState.actionId unique
          (List.mem_of_find?_eq_some found) member
          (equal.trans same.symm)
        exact ⟨other, rfl, first ▸ isEnded⟩

/-- The entries of ended actions have been counted once more. -/
private theorem mem_cleanup_counts
    (unique : (c.agv.currentState.actionStates.map (·.actionId)).Nodup) {entry : String × Nat} :
    entry ∈ c.cleanupInstantActionStates.agv.instantActionsEndedPublishCount ↔
      ∃ original ∈ c.agv.instantActionsEndedPublishCount,
        c.HasEnded original.1 ∧
            original.2 + 1 < c.agv.finalInstantActionStateChangePublishCount ∧
            (original.1, original.2 + 1) = entry ∨
          ¬ c.HasEnded original.1 ∧ original = entry := by
  simp only [cleanupInstantActionStates, List.mem_filterMap]
  refine exists_congr fun original => and_congr_right fun _ => ?_
  by_cases ended : c.HasEnded original.1
  · rw [if_pos ((find?_any_isEnded_iff unique _).mpr ended), Option.map_eq_some_iff]
    simp [ended, countPublication_eq_some, and_assoc]
  · rw [if_neg fun found => ended ((find?_any_isEnded_iff unique _).mp found)]
    simp [ended]

/-- The states of ended actions that have been counted often enough are removed. -/
private theorem mem_cleanup_actionStates
    (unique : (c.agv.currentState.actionStates.map (·.actionId)).Nodup) {state : ActionState} :
    state ∈ c.cleanupInstantActionStates.agv.currentState.actionStates ↔
      state ∈ c.agv.currentState.actionStates ∧
        ∀ entry ∈ c.agv.instantActionsEndedPublishCount, entry.1 = state.actionId →
          c.HasEnded entry.1 →
            entry.2 + 1 < c.agv.finalInstantActionStateChangePublishCount := by
  simp only [cleanupInstantActionStates, List.mem_filter]
  refine and_congr_right fun _ => ?_
  simp only [Bool.not_eq_true', List.any_eq_false, List.mem_filter, Bool.and_eq_true,
    find?_any_isEnded_iff unique, countPublication_isNone, decide_eq_true_eq]
  constructor
  · intro kept entry member same ended
    by_contra reached
    exact kept entry ⟨member, ended, Nat.le_of_not_lt reached⟩ same
  · rintro stays entry ⟨member, ended, reached⟩ same
    exact absurd (stays entry member same ended) (Nat.not_lt.mpr reached)

end Config

namespace CountsFinalStates

variable {limit : Nat} {deliveries : ActionState → Nat} {c : Config} {sent : State}

/-- A publication that contains all final states has completed. -/
theorem complete (counts : CountsFinalStates limit deliveries c)
    (unique : (c.agv.currentState.actionStates.map (·.actionId)).Nodup)
    (published : sent ∈ c.published)
    (contains : ∀ state ∈ c.agv.currentState.actionStates,
      state.actionId ∈ c.endedPublishCountKeys → state.actionStatus.isEnded →
        state ∈ sent.actionStates) :
    CountsFinalStates limit
      (fun state => deliveries state + if state ∈ sent.actionStates then 1 else 0)
      c.cleanupInstantActionStates := by
  have key : ∀ entry ∈ c.agv.instantActionsEndedPublishCount, entry.1 ∈ c.endedPublishCountKeys :=
    fun entry => List.mem_map_of_mem
  -- a final state is delivered once more
  have more : ∀ entry ∈ c.agv.instantActionsEndedPublishCount,
      ∀ state ∈ c.agv.currentState.actionStates, state.actionId = entry.1 →
        state.actionStatus.isEnded →
          entry.2 + 1 = deliveries state + if state ∈ sent.actionStates then 1 else 0 := by
    intro entry member state included same isEnded
    rw [counts.ended entry member state included same isEnded,
      if_pos (contains state included (same ▸ key entry member) isEnded)]
  constructor
  case sameLimit => exact counts.sameLimit
  case below =>
    intro entry member
    obtain ⟨original, known, ⟨-, less, rfl⟩ | ⟨-, rfl⟩⟩ := (Config.mem_cleanup_counts unique).mp member
    · exact counts.sameLimit ▸ less
    · exact counts.below original known
  case ended =>
    intro entry member state included same isEnded
    have current := ((Config.mem_cleanup_actionStates unique).mp included).1
    obtain ⟨original, known, ⟨-, -, rfl⟩ | ⟨going, rfl⟩⟩ :=
      (Config.mem_cleanup_counts unique).mp member
    · exact more original known state current same isEnded
    · exact absurd ⟨state, current, same, isEnded⟩ going
  case going =>
    intro entry member none
    obtain ⟨original, known, ⟨⟨state, current, same, isEnded⟩, less, rfl⟩ | ⟨going, rfl⟩⟩ :=
      (Config.mem_cleanup_counts unique).mp member
    · -- every other entry of the action has the same count
      have stays : state ∈ c.cleanupInstantActionStates.agv.currentState.actionStates := by
        refine (Config.mem_cleanup_actionStates unique).mpr ⟨current, fun other found equal _ => ?_⟩
        have count := more other found state current equal.symm isEnded
        rw [← more original known state current same isEnded] at count
        omega
      simp [none state stays same] at isEnded
    · refine counts.going original known fun state current same => ?_
      rw [← Bool.not_eq_true]
      exact fun isEnded => going ⟨state, current, same, isEnded⟩
  case known => exact counts.known
  case final =>
    intro earlier member state listed counted isEnded
    obtain ⟨entry, found, same⟩ := List.mem_map.mp counted
    obtain ⟨original, known, cases⟩ := (Config.mem_cleanup_counts unique).mp found
    have id : original.1 = state.actionId := by
      rcases cases with ⟨-, -, rfl⟩ | ⟨-, rfl⟩ <;> exact same
    have current := counts.final earlier member state listed (id ▸ key original known) isEnded
    refine (Config.mem_cleanup_actionStates unique).mpr ⟨current, fun other others equal _ => ?_⟩
    rcases cases with ⟨-, less, -⟩ | ⟨going, -⟩
    · have count := more other others state current equal.symm isEnded
      rw [← more original known state current id.symm isEnded] at count
      omega
    · exact absurd ⟨state, current, id.symm, isEnded⟩ going
  case delivered =>
    intro state positive
    by_cases listed : state ∈ sent.actionStates
    · exact ⟨sent, published, listed⟩
    · exact counts.delivered state (by simpa [listed] using positive)

/-- A final state that is removed has been delivered as often as configured. -/
theorem removed (counts : CountsFinalStates limit deliveries c)
    (unique : (c.agv.currentState.actionStates.map (·.actionId)).Nodup) {state : ActionState}
    (current : state ∈ c.agv.currentState.actionStates) (isEnded : state.actionStatus.isEnded)
    (gone : state ∉ c.cleanupInstantActionStates.agv.currentState.actionStates) :
    deliveries state + 1 = limit := by
  rw [Config.mem_cleanup_actionStates unique, not_and] at gone
  have reached := gone current
  push Not at reached
  obtain ⟨entry, member, same, -, reached⟩ := reached
  have count := counts.ended entry member state current same.symm isEnded
  have below := counts.below entry member
  rw [counts.sameLimit] at reached
  omega

end CountsFinalStates

/-! ## Steps of the controller -/

/-- The configuration in which the next instant action is dispatched. -/
def Config.dispatching (c : Config) : Config :=
  match c.stack with
  | .processInstantActions i stopIndex stopDriving :: rest =>
      Config.call { c with stack := rest } [.processInstantActions (i + 1) stopIndex stopDriving]
  | _ => { c with stack := c.stack.tail }

private theorem Config.dispatching_same (c : Config) :
    c.dispatching.agv = c.agv ∧ c.dispatching.log = c.log ∧
      c.dispatching.published = c.published := by
  unfold Config.dispatching
  split <;> exact ⟨rfl, rfl, rfl⟩

/-- A call that dispatches an instant action, if there is still one. -/
private theorem Config.proceed_of_isDispatch {c : Config} {frame : Frame} {rest : List Frame}
    (stack : c.stack = frame :: rest) (dispatch : frame.isDispatch) :
    ∃ stopDriving, c.proceed =
      c.dispatching.processInstantAction c.nextInstantAction stopDriving := by
  cases frame with
  | processInstantAction action stopDriving =>
      exact ⟨stopDriving, by simp [proceed, stack, resume, dispatching, nextInstantAction]⟩
  | processInstantActions i stopIndex stopDriving =>
      have going : i < stopIndex := by simpa [Frame.isDispatch] using dispatch
      exact ⟨stopDriving, by
        simp [proceed, stack, resume, going, dispatching, nextInstantAction, call]⟩
  | _ => simp [Frame.isDispatch] at dispatch

/-- The action to be dispatched has been accepted. -/
theorem Config.Provenant.nextInstantAction {c : Config} (valid : c.Provenant) {action : Action}
    (next : c.nextInstantAction = some action) : action.actionId ∈ c.instantIds := by
  unfold Config.nextInstantAction at next
  split at next
  · next pending stopDriving rest stack =>
    subst next
    exact Provenance.stack valid (.processInstantAction (some action) stopDriving) (by simp [stack])
  · split at next
    · exact Provenance.instantActions valid action (List.mem_of_getElem? next)
    · cases next
  · cases next

private theorem Config.idle_of_not_dispatch {c : Config} {event : Event}
    (notDispatches : ¬(event = .proceed ∧
      ∃ frame rest, c.stack = frame :: rest ∧ frame.isDispatch)) :
    event = .proceed → ∀ frame ∈ c.stack.head?, !frame.isDispatch := by
  rintro rfl frame top
  by_contra dispatch
  cases stack : c.stack with
  | nil => simp [stack] at top
  | cons first rest =>
      obtain rfl : first = frame := by simpa [stack] using top
      exact notDispatches ⟨rfl, first, rest, stack, by simpa using dispatch⟩

namespace InstantStates

variable {c : Config}

/-- An instant action has no state before it is dispatched. -/
private theorem absent_of_dispatchedOnce (states : InstantStates c) {action : Action}
    (instant : action.actionId ∈ c.instantIds)
    (fresh : action.actionId ∉ dispatchedInstantActions c.log) :
    ∀ state ∈ c.agv.currentState.actionStates, state.actionId ≠ action.actionId :=
  fun state member same => fresh (same ▸ states.dispatched state member (same.symm ▸ instant))

/-- Counted actions that are reported have not ended yet. -/
private theorem reported_going (states : InstantStates c) (consistent : Consistent c)
    {event : Event} (environment : Environment c event) :
    ∀ id ∈ event.reportedAction c, ∀ state ∈ c.agv.currentState.actionStates,
      state.actionId = id → id ∈ c.endedPublishCountKeys → state.actionStatus.isEnded = false := by
  intro id isReported state member same counted
  cases event with
  | updateActionStatus context change =>
      obtain rfl : context.action.actionId = id := by
        simpa [Event.reportedAction] using isReported
      obtain ⟨entry, held, equal⟩ := List.mem_map.mp counted
      have instantId := Provenance.endedPublishCount consistent.provenant entry held
      rw [equal] at instantId
      have own := Provenance.executing consistent.provenant context environment.1.1
      have instant : context.scope = .instant := by
        unfold ActionContext.From at own
        split at own
        · assumption
        · exact absurd instantId (consistent.distinct.disjoint own.2)
        · exact absurd instantId (consistent.distinct.disjoint own.2)
      refine states.held_open context.action (List.mem_append_left _ ?_) state member same
      exact List.mem_map_of_mem (List.mem_filter.mpr ⟨environment.1.1, by simpa using instant⟩)
  | stopped context =>
      obtain ⟨pending, active, rfl⟩ := Option.map_eq_some_iff.mp isReported
      refine states.held_open pending.action (List.mem_append_right _ ?_) state member same
      simp [active]
  | _ => cases isReported

/-- Every step but the completion of a publication keeps the states of instant actions
that have ended. -/
private theorem ended_stays (states : InstantStates c) (consistent : Consistent c) {event : Event}
    (environment : Environment c event) (once : DispatchedOnce c event)
    (other : event ≠ .published true) {state : ActionState}
    (current : state ∈ c.agv.currentState.actionStates) (instant : state.actionId ∈ c.instantIds)
    (isEnded : state.actionStatus.isEnded) :
    state ∈ (c.perform event).agv.currentState.actionStates := by
  have counted := states.counted state current instant
  by_cases dispatches : event = .proceed ∧ ∃ frame rest, c.stack = frame :: rest ∧ frame.isDispatch
  · obtain ⟨rfl, frame, rest, stack, isDispatch⟩ := dispatches
    obtain ⟨stopDriving, same⟩ := Config.proceed_of_isDispatch stack isDispatch
    have popped : state ∈ c.dispatching.agv.currentState.actionStates := by
      rwa [c.dispatching_same.1]
    rw [Config.perform, same]
    by_cases throws : c.nextInstantAction = none ∨ c.dispatching.agv.lacksCurrentOrder
    · rw [c.dispatching.processInstantAction_throws throws]
      exact popped
    rw [not_or, Bool.not_eq_true] at throws
    cases next : c.nextInstantAction with
    | none => exact absurd next throws.1
    | some action =>
        have absent := states.absent_of_dispatchedOnce
          (consistent.provenant.nextInstantAction next) (once action next)
        refine ((c.dispatching.processInstantAction_lists throws.2 action stopDriving).stays state ?_
          fun reported => absent state current (Option.some.inj reported).symm).mpr popped
        have known : state.actionId ∈ c.dispatching.endedPublishCountKeys := by
          rwa [Config.endedPublishCountKeys, c.dispatching_same.1]
        exact mem_keys_setEntry.mpr (.inr known)
  · refine ((c.perform_lists consistent.provenant environment
      (Config.idle_of_not_dispatch dispatches) other).stays state counted ?_).mpr current
    intro reported
    simp [states.reported_going consistent environment _ reported state current rfl counted]
      at isEnded

end InstantStates

namespace CountsFinalStates

variable {limit : Nat} {deliveries : ActionState → Nat} {c : Config}

theorem same (counts : CountsFinalStates limit deliveries c) {next : Config}
    (agv : next.agv = c.agv) (published : next.published = c.published)
    (log : next.log = c.log) : CountsFinalStates limit deliveries next := by
  have keys : next.endedPublishCountKeys = c.endedPublishCountKeys := by
    simp only [Config.endedPublishCountKeys, agv]
  have orders : next.orderIds = c.orderIds := by simp only [Config.orderIds, log]
  constructor
  case known =>
    rw [orders, log, published]
    exact counts.known
  case final =>
    rw [keys, agv, published]
    exact counts.final
  case delivered =>
    rw [published]
    exact counts.delivered
  all_goals rw [agv]
  exacts [counts.sameLimit, counts.below, counts.ended, counts.going]

/-- Every step but the completion of a publication preserves the counts. -/
theorem perform (counts : CountsFinalStates limit deliveries c) (positive : 0 < limit)
    (consistent : Consistent c) (states : InstantStates c) {event : Event}
    (environment : Environment c event) (once : DispatchedOnce c event)
    (other : event ≠ .published true) :
    CountsFinalStates limit deliveries (c.perform event) := by
  obtain ⟨observations, log⟩ := c.perform_log event
  have orders : c.orderIds ⊆ (c.perform event).orderIds := orderIds_append log
  have dispatched : dispatchedInstantActions c.log ⊆
      dispatchedInstantActions (c.perform event).log := by
    rw [log, dispatchedInstantActions_append]
    exact List.subset_append_left _ _
  have known : ∀ state ∈ (c.perform event).agv.currentState.actionStates,
      state.actionId ∈ (c.perform event).orderIds ∨
        state.actionId ∈ dispatchedInstantActions (c.perform event).log := by
    intro state member
    have next := states.perform consistent environment once
    exact (Provenance.actionStates (consistent.perform environment).provenant state member).imp_right
      (next.dispatched state member)
  by_cases dispatches : event = .proceed ∧ ∃ frame rest, c.stack = frame :: rest ∧ frame.isDispatch
  · obtain ⟨rfl, frame, rest, stack, isDispatch⟩ := dispatches
    obtain ⟨stopDriving, same⟩ := Config.proceed_of_isDispatch stack isDispatch
    have equal := c.dispatching_same
    have popped : CountsFinalStates limit deliveries c.dispatching :=
      counts.same equal.1 equal.2.2 equal.2.1
    simp only [Config.perform, same] at orders dispatched known ⊢
    by_cases throws : c.nextInstantAction = none ∨ c.dispatching.agv.lacksCurrentOrder
    · have crashed : ListsActionStates none c.dispatching
          (c.dispatching.processInstantAction c.nextInstantAction stopDriving) := by
        rw [c.dispatching.processInstantAction_throws throws]
        exact .of_same rfl rfl
      exact popped.lists crashed (by simp)
        (by simpa only [Config.orderIds, equal.2.1] using orders)
        (by simpa only [equal.2.1] using dispatched) known
    rw [not_or, Bool.not_eq_true] at throws
    cases next : c.nextInstantAction with
    | none => exact absurd next throws.1
    | some action =>
        rw [next] at orders dispatched known
        have instant := consistent.provenant.nextInstantAction next
        have fresh := once action next
        have absent := states.absent_of_dispatchedOnce instant fresh
        have begun := popped.dispatch positive (equal.2.1.symm ▸ fresh)
          (by
            rw [Config.orderIds, equal.2.1]
            exact fun order => consistent.distinct.disjoint order instant)
          (by rwa [equal.1])
        refine begun.lists
          (Config.processInstantAction_lists c.dispatching throws.2 action stopDriving) ?_
          ?_ ?_ known
        · rintro _ ⟨⟩ state member same
          have current : state ∈ c.agv.currentState.actionStates := by
            rw [← equal.1]
            exact member
          exact absurd same (absent state current)
        · refine fun id member => orders ?_
          simpa [Config.orderIds, Config.observe, Config.resetEndedPublishCount, equal.2.1,
            acceptedOrderActions] using member
        · obtain ⟨later, appended, -⟩ :=
            c.dispatching.processInstantAction_quiet_dispatch (some action) stopDriving
          rw [appended, dispatchedInstantActions_append]
          exact List.subset_append_left _ _
  · have idle := Config.idle_of_not_dispatch dispatches
    refine counts.lists (c.perform_lists consistent.provenant environment idle other) ?_ orders
      dispatched known
    exact states.reported_going consistent environment

end CountsFinalStates

/-! ## Every run -/

namespace Publications

variable (p : Publications)

/-- How many of the States published successfully contain an action state. -/
def stateDeliveries (state : ActionState) : Nat :=
  p.delivered.countP (state ∈ ·.actionStates)

/-- The final states of instant actions that a step removes have been published
successfully as often as configured. -/
def DeliversFinalStates (limit : Nat) (p after : Publications) : Prop :=
  ∀ state ∈ p.config.agv.currentState.actionStates, state.actionId ∈ p.config.instantIds →
    state.actionStatus.isEnded → state ∉ after.config.agv.currentState.actionStates →
      after.stateDeliveries state = limit

/-- The environment is one the controller is made for, and dispatches no instant action
a second time. -/
def DispatchesOnce (p : Publications) : PublicationEvent → Prop
  | .controller event => Environment p.config event ∧ DispatchedOnce p.config event
  | .completed .. => True

/-- In addition, each State that is published successfully has been handed over when all
the instant actions that have ended by its completion had ended. -/
def ContainsFinalStates (p : Publications) : PublicationEvent → Prop
  | .controller event => p.DispatchesOnce (.controller event)
  | .completed index succeeded =>
      succeeded → ∀ published ∈ p.pending[index]?,
        ∀ state ∈ p.config.agv.currentState.actionStates,
          state.actionId ∈ p.config.instantIds → state.actionStatus.isEnded →
            state ∈ published.actionStates

instance (p : Publications) : DecidablePred p.DispatchesOnce := fun
  | .controller _ => inferInstanceAs (Decidable (_ ∧ _))
  | .completed .. => isTrue trivial

instance (p : Publications) : DecidablePred p.ContainsFinalStates := fun
  | .controller event => inferInstanceAs (Decidable (p.DispatchesOnce (.controller event)))
  | .completed index succeeded =>
      inferInstanceAs (Decidable (succeeded → ∀ published ∈ p.pending[index]?,
        ∀ state ∈ p.config.agv.currentState.actionStates,
          state.actionId ∈ p.config.instantIds → state.actionStatus.isEnded →
            state ∈ published.actionStates))

/-- The counts of the controller are those of the deliveries. -/
structure TracksFinalStates (limit : Nat) (p : Publications) : Prop where
  consistent : Consistent p.config
  states : InstantStates p.config
  counts : CountsFinalStates limit p.stateDeliveries p.config
  pending : p.PendingPublished

theorem TracksFinalStates.initial (limit : Nat) :
    TracksFinalStates (max 1 limit) (initial limit) where
  consistent := .initial limit
  states := .initial limit
  counts := by
    constructor <;> simp [Publications.initial, Config.initial, AgvController.initial,
      stateDeliveries]
  pending := by simp [Publications.initial, PendingPublished]

namespace TracksFinalStates

variable {p : Publications} {limit : Nat}

theorem unique (tracks : TracksFinalStates limit p) :
    (p.config.agv.currentState.actionStates.map (·.actionId)).Nodup :=
  tracks.consistent.books.unique

private theorem stateDeliveries_complete (next : Config) (index : Nat) (sent : State) :
    (p.complete next index sent true).stateDeliveries = fun state =>
      p.stateDeliveries state + if state ∈ sent.actionStates then 1 else 0 := by
  funext state
  simp [stateDeliveries, Publications.complete, List.countP_append, List.countP_singleton]

/-- The final states of counted actions are contained in a State that completes. -/
theorem contains (tracks : TracksFinalStates limit p) {index : Nat} {sent : State}
    (contains : p.ContainsFinalStates (.completed index true)) (found : p.pending[index]? = some sent)
    {state : ActionState} (member : state ∈ p.config.agv.currentState.actionStates)
    (counted : state.actionId ∈ p.config.endedPublishCountKeys)
    (isEnded : state.actionStatus.isEnded) : state ∈ sent.actionStates := by
  obtain ⟨entry, held, same⟩ := List.mem_map.mp counted
  have instant := Provenance.endedPublishCount tracks.consistent.provenant entry held
  exact contains rfl sent found state member (same ▸ instant) isEnded

theorem step (tracks : TracksFinalStates limit p) (positive : 0 < limit)
    {event : PublicationEvent} (permitted : p.ContainsFinalStates event) {after : Publications}
    (stepped : p.step event = some after) : TracksFinalStates limit after := by
  have pending := tracks.pending.step stepped
  cases event with
  | controller event =>
      obtain ⟨other, next, performed, rfl⟩ := step_controller stepped
      obtain ⟨-, rfl⟩ := Config.step_eq_some.mp performed
      obtain ⟨environment, once⟩ := permitted
      exact ⟨tracks.consistent.perform environment,
        tracks.states.perform tracks.consistent environment once,
        tracks.counts.perform positive tracks.consistent tracks.states environment once (other true),
        pending⟩
  | completed index succeeded =>
      obtain ⟨sent, next, found, performed, rfl⟩ := step_completed stepped
      obtain ⟨-, rfl⟩ := Config.step_eq_some.mp performed
      have environment : Environment p.config (.published succeeded) := ⟨trivial, trivial⟩
      refine ⟨tracks.consistent.perform environment,
        tracks.states.perform tracks.consistent environment trivial, ?_, pending⟩
      cases succeeded with
      | false =>
          exact tracks.counts.perform positive tracks.consistent tracks.states environment trivial
            (by simp)
      | true =>
          rw [stateDeliveries_complete]
          have waiting : CountsFinalStates limit p.stateDeliveries
              { p.config with inFlight := p.config.inFlight - 1 } := tracks.counts.same rfl rfl rfl
          exact waiting.complete tracks.unique (tracks.pending (List.mem_of_getElem? found))
            fun state => tracks.contains permitted found

/-- Nothing but the completion of a publication removes a final state. -/
private theorem deliversFinalStates (tracks : TracksFinalStates limit p)
    {event : PublicationEvent} (permitted : p.ContainsFinalStates event) {after : Publications}
    (stepped : p.step event = some after) : DeliversFinalStates limit p after := by
  intro state current instant isEnded gone
  cases event with
  | controller event =>
      obtain ⟨other, next, performed, rfl⟩ := step_controller stepped
      obtain ⟨-, rfl⟩ := Config.step_eq_some.mp performed
      exact absurd (tracks.states.ended_stays tracks.consistent permitted.1 permitted.2 (other true)
        current instant isEnded) gone
  | completed index succeeded =>
      obtain ⟨sent, next, found, performed, rfl⟩ := step_completed stepped
      obtain ⟨-, rfl⟩ := Config.step_eq_some.mp performed
      cases succeeded with
      | false => exact absurd current gone
      | true =>
          have listed := permitted rfl sent found state current instant isEnded
          have waiting : CountsFinalStates limit p.stateDeliveries
              { p.config with inFlight := p.config.inFlight - 1 } := tracks.counts.same rfl rfl rfl
          have counted := waiting.removed tracks.unique current isEnded gone
          rw [stateDeliveries_complete]
          simpa [listed] using counted

end TracksFinalStates

/-- Every final state of an instant action is contained in exactly as many States
published successfully before it is removed as is configured, in every run in which each
State that completes contains all the final states there are by then. -/
theorem finalStates_delivered {limit : Nat} {events : List PublicationEvent}
    {p after : Publications} {event : PublicationEvent}
    (run : Run step ContainsFinalStates (initial limit) events p)
    (permitted : p.ContainsFinalStates event) (stepped : p.step event = some after) :
    DeliversFinalStates (max 1 limit) p after := by
  refine (run.invariant (TracksFinalStates (max 1 limit)) (.initial limit) ?_).deliversFinalStates
    permitted stepped
  intro _ p event after _ tracks permitted stepped
  exact tracks.step (by omega) permitted stepped

/-- A request of the state, which is executed by the controller itself. -/
def stateRequest : Action where
  actionId := "request"
  actionType := "stateRequest"
  blockingType := .none

/-- The state of the executed request. -/
def requestedState : ActionState where
  actionId := "request"
  actionStatus := .finished
  actionType := "stateRequest"
  resultDescription := some "Reported new state"

/-- The request is received, dispatched, and reported as finished. -/
def requestState : List PublicationEvent :=
  [.controller (.instantActions ⟨[stateRequest]⟩ {}), .controller .proceed, .controller .proceed,
    .controller .proceed]

theorem finalStates_delivered_stateRequest :
    ∃ p after,
      Run step ContainsFinalStates (initial 2)
        (requestState ++ [.completed 0 true, .controller .publishTimer]) p ∧
      p.step (.completed 0 true) = some after ∧
      requestedState ∈ p.config.agv.currentState.actionStates ∧
      requestedState ∉ after.config.agv.currentState.actionStates ∧
      DeliversFinalStates (max 1 2) p after := by
  have passed : (execute step ContainsFinalStates (initial 2)
      (requestState ++ [.completed 0 true, .controller .publishTimer])).any
      (fun p => decide (p.ContainsFinalStates (.completed 0 true) ∧
        requestedState ∈ p.config.agv.currentState.actionStates) &&
        (p.step (.completed 0 true)).any fun after =>
          decide (requestedState ∉ after.config.agv.currentState.actionStates)) = true := by decide
  obtain ⟨p, run, found⟩ := exists_run_of_execute passed
  simp only [Bool.and_eq_true, decide_eq_true_eq, Option.any_eq_true] at found
  obtain ⟨⟨permitted, current⟩, after, stepped, gone⟩ := found
  exact ⟨p, after, run, stepped, current, gone, finalStates_delivered run permitted stepped⟩

/-- A State handed over before the request has been received is counted when its
publication completes, although it does not contain the final state. -/
theorem not_finalStates_delivered_publishedBefore :
    ¬ ∀ (limit : Nat) (events : List PublicationEvent) (p after : Publications)
      (event : PublicationEvent), Run step DispatchesOnce (initial limit) events p →
        p.DispatchesOnce event → p.step event = some after →
          DeliversFinalStates (max 1 limit) p after := by
  intro delivered
  have passed : (execute step DispatchesOnce (initial 1)
      (.controller .publishTimer :: requestState)).any
      (fun p => decide (requestedState ∈ p.config.agv.currentState.actionStates ∧
        requestedState.actionId ∈ p.config.instantIds) &&
        (p.step (.completed 0 true)).any fun after =>
          decide (requestedState ∉ after.config.agv.currentState.actionStates ∧
            after.stateDeliveries requestedState = 0)) = true := by decide
  obtain ⟨p, run, found⟩ := exists_run_of_execute passed
  simp only [Bool.and_eq_true, decide_eq_true_eq, Option.any_eq_true] at found
  obtain ⟨⟨current, instant⟩, after, stepped, gone, none⟩ := found
  have once := delivered 1 _ p after (.completed 0 true) run trivial stepped requestedState current
    instant rfl gone
  rw [none] at once
  exact absurd once (by decide)

end Publications

end Vda5050
