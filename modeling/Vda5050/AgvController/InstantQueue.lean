import Vda5050.AgvController.Bookkeeping
import Vda5050.AgvController.Scheduling
import Vda5050.AgvController.Upkeep
import Vda5050.Library.Trace

/-!
# The queue of instant actions

As long as no instant action ends while a loop over the queue is still going
on, the queue holds the dispatched actions that have not ended, followed by
the accepted actions still waiting, in the order of their acceptance.
-/

set_option autoImplicit false

namespace Vda5050

open AgvController

/-! ## Undisturbed runs -/

/-- A loop of `_processInstantActionChunk` has actions left to dispatch. -/
def Frame.isLoop : Frame → Bool
  | .processInstantActions i stopIndex _ => i < stopIndex
  | _ => false

/-- No instant action ends while a loop over the queue is going on: the splice
of the ended action would shift the elements the loop has still to visit. -/
def QueueUndisturbed (c : Config) : Event → Prop
  | .updateActionStatus context change =>
      context.scope = .instant → change.actionStatus.isEnded → ∀ frame ∈ c.stack, !frame.isLoop
  | .stopped _ => ∀ frame ∈ c.stack, !frame.isLoop
  | .proceed =>
      match c.stack with
      | .processInstantActions i stopIndex _ :: _ =>
          i + 1 < stopIndex →
            (c.agv.currentInstantActions[i]?).all (·.actionType ≠ "stateRequest")
      | _ => True
  | _ => True

/-- A frame whose continuation leaves the queue as the loop over it expects. -/
def Frame.keepsLoop (agv : AgvController) : Frame → Bool
  | .processInstantActions i stopIndex _ =>
      !decide (i + 1 < stopIndex) ||
        (agv.currentInstantActions[i]?).all (·.actionType ≠ "stateRequest")
  | _ => true

private theorem queueUndisturbed_proceed (c : Config) :
    QueueUndisturbed c .proceed ↔ (c.stack.head?).all (·.keepsLoop c.agv) = true := by
  unfold QueueUndisturbed
  cases c.stack with
  | nil => simp
  | cons frame stack => cases frame <;> simp [Frame.keepsLoop, imp_iff_not_or]

instance (c : Config) (event : Event) : Decidable (QueueUndisturbed c event) :=
  match event with
  | .updateActionStatus context change =>
      inferInstanceAs (Decidable (context.scope = .instant → change.actionStatus.isEnded →
        ∀ frame ∈ c.stack, !frame.isLoop))
  | .stopped _ => inferInstanceAs (Decidable (∀ frame ∈ c.stack, !frame.isLoop))
  | .proceed => decidable_of_iff _ (queueUndisturbed_proceed c).symm
  | .order .. | .invalidOrder .. | .instantActions .. | .invalidInstantActions ..
  | .edgeTraversed _ | .drivingToNextNode _ | .updatePartialState .. | .updateErrors ..
  | .publishTimer | .published _ | .connection _ => isTrue trivial

/-! ## Books of the queue -/

/-- Actions are dispatched in the order of their acceptance, each at most once,
where a HARD action and the actions around it do not overlap. -/
def DispatchedInOrder (past : List Observation) (observation : Observation) : Prop :=
  ∀ dispatched, observation = .instantActionProcessed dispatched →
    ∃ action ∈ acceptedInstantActions past, dispatched = some action ∧
      some action ∉ processedInstantActions past ∧
      ∀ earlier, [earlier, action].Sublist (acceptedInstantActions past) →
        isHard earlier ∨ isHard action → earlier.actionId ∈ endedInstantActions past

/-- The dispatched actions that have not ended. -/
def runningActions (log : List Observation) (processed : List Action) : List Action :=
  processed.filter fun action => action.actionId ∉ endedInstantActions log

/-- The instant actions whose end is to be reported by the adapter or on
completion of a cancelation. -/
def Config.heldInstantActions (c : Config) : List Action :=
  (c.executing.filter (·.scope = .instant)).map (·.action) ++
    (c.agv.cancelOrderContext.map (·.action)).toList

structure QueueBook (c : Config) (processed waiting : List Action) : Prop where
  accepted : acceptedInstantActions c.log = processed ++ waiting
  dispatched : processedInstantActions c.log = processed.map some
  ordered : Library.Always DispatchedInOrder c.log
  queue : c.agv.currentInstantActions = runningActions c.log processed ++ waiting
  ended : ∀ id ∈ endedInstantActions c.log, id ∈ actionIds processed
  held : c.heldInstantActions ⊆ runningActions c.log processed
  unique : (actionIds c.heldInstantActions).Nodup
  alone : ∀ action ∈ runningActions c.log processed, isHard action →
    runningActions c.log processed = [action]
  open_states : ∀ state ∈ c.agv.currentState.actionStates,
    state.actionId ∈ actionIds (runningActions c.log processed) → state.actionStatus.isEnded = false
  not_waiting : ∀ state ∈ c.agv.currentState.actionStates, state.actionId ∈ c.instantIds →
    state.actionId ∈ actionIds processed ∧ state.actionStatus ≠ .waiting

/-- Frames that leave the queue to others. -/
def Frame.isInert : Frame → Bool
  | .processInstantActionChunk .. | .processInstantAction .. => false
  | .processInstantActions i stopIndex _ => !(i < stopIndex)
  | _ => true

/-- Nothing can be dispatched before a running action has ended. -/
def Resting (running waiting : List Action) : Prop :=
  waiting = [] ∨ running ≠ [] ∧
    ((∃ action behind, waiting = action :: behind ∧ isHard action) ∨
      ∃ action, running = [action] ∧ isHard action)

/-- At most a loop over the queue is still to be continued. -/
inductive Settled (stack : List Frame) (running waiting : List Action) : Prop where
  | resting (inert : ∀ frame ∈ stack, frame.isInert) (resting : Resting running waiting)
  | loop {before after : List Frame} {i stopIndex : Nat} {stopDriving : Bool}
      {chunk behind : List Action}
      (split : stack = before ++ .processInstantActions i stopIndex stopDriving :: after)
      (inert : ∀ frame ∈ before ++ after, frame.isInert) (index : i = running.length)
      (stop : stopIndex = i + chunk.length) (pending : chunk ≠ [])
      (waiting_eq : waiting = chunk ++ behind)
      (chunk_parallel : ∀ action ∈ chunk, isHard action = false)
      (barrier : ∀ action ∈ behind.head?, isHard action)
      (parallel : ∀ action ∈ running, isHard action = false)

/-- The calls that are still to be made on the queue. -/
inductive QueuePhase (stack : List Frame) (running waiting : List Action) : Prop where
  | settled (settled : Settled stack running waiting)
  | restart {rest : List Frame} (top : stack = .processInstantActionChunk none false :: rest)
      (inert : ∀ frame ∈ rest, frame.isInert) (none : running = [])
  | extend {last : Action} {before : List Action} {rest : List Frame}
      (top : stack = .processInstantActionChunk (some last) true :: rest)
      (inert : ∀ frame ∈ rest, frame.isInert) (running_eq : running = before ++ [last])
      (parallel : ∀ action ∈ running, isHard action = false)
  | hard {action : Action} {stopDriving : Bool} {behind : List Action} {rest : List Frame}
      (top : stack = .processInstantAction (some action) stopDriving :: rest)
      (inert : ∀ frame ∈ rest, frame.isInert) (none : running = [])
      (next : waiting = action :: behind) (hard : isHard action)

/-- The queue between the steps of an undisturbed run. -/
def QueueInvariant (c : Config) : Prop :=
  c.crashed ∧ c.stack = [] ∧ Library.Always DispatchedInOrder c.log ∨
    ∃ processed waiting, QueueBook c processed waiting ∧
      QueuePhase c.stack (runningActions c.log processed) waiting

/-! ## Steps that leave the queue alone -/

def Observation.isOffQueue : Observation → Bool
  | .instantActionAccepted _ | .instantActionProcessed _ => false
  | .actionStatus context status => !(context.scope = .instant && status.isEnded)
  | _ => true

structure KeepsQueue (c next : Config) : Prop where
  queue : next.agv.currentInstantActions = c.agv.currentInstantActions
  log : ∃ observations, next.log = c.log ++ observations ∧
    ∀ observation ∈ observations, observation.isOffQueue
  held : next.heldInstantActions = c.heldInstantActions
  states : ∀ state ∈ next.agv.currentState.actionStates, state.actionId ∈ c.instantIds →
    state ∈ c.agv.currentState.actionStates
  stack : (∃ frames, next.stack = frames ++ c.stack ∧ ∀ frame ∈ frames, frame.isInert) ∨
    next.crashed ∧ next.stack = []
  counted : ∀ id ∈ c.instantIds, id ∈ c.endedPublishCountKeys → id ∈ next.endedPublishCountKeys ∨
    (∃ state ∈ c.agv.currentState.actionStates, state.actionId = id ∧ state.actionStatus.isEnded) ∧
      ∀ state ∈ next.agv.currentState.actionStates, state.actionId ≠ id

private theorem dispatchedInOrder_of_isOffQueue {past : List Observation}
    {observation : Observation}
    (off : observation.isOffQueue) : DispatchedInOrder past observation := by
  rintro dispatched rfl
  simp [Observation.isOffQueue] at off

theorem offQueue_histories {observations : List Observation}
    (offQueue : ∀ observation ∈ observations, observation.isOffQueue) :
    acceptedInstantActions observations = [] ∧ processedInstantActions observations = [] ∧
      endedInstantActions observations = [] := by
  refine ⟨?_, ?_, ?_⟩ <;> refine List.filterMap_eq_nil_iff.mpr fun observation member => ?_
  all_goals
    have off := offQueue observation member
    cases observation <;> simp [Observation.isOffQueue] at off ⊢
  rcases off with order | running
  · exact fun instant => absurd instant order
  · exact fun _ => running

theorem OrderMove.held {c next : Config} (move : OrderMove c next) :
    next.heldInstantActions = c.heldInstantActions := by
  obtain ⟨_, _, _, _, _, agv⟩ := move.agv
  obtain ⟨contexts, executing, order⟩ := move.executing
  have none : contexts.filter (·.scope = .instant) = [] := by
    simpa [List.filter_eq_nil_iff] using order
  simp [Config.heldInstantActions, agv, executing, none]

private theorem Frame.isInert_of_isOrderFrame {frame : Frame}
    (order : frame = .adapter ∨ frame.isOrderFrame) : frame.isInert := by
  rcases order with rfl | order
  · rfl
  · cases frame <;> simp_all [Frame.isOrderFrame, Frame.isInert]

private theorem Observation.isOffQueue_of_isOrderMove {observation : Observation}
    (order : observation.isOrderMove) : observation.isOffQueue := by
  cases observation <;> simp_all [Observation.isOrderMove, Observation.isOffQueue]

namespace KeepsQueue

variable {c middle next : Config}

theorem refl (c : Config) : KeepsQueue c c where
  queue := rfl
  log := ⟨[], by simp, by simp⟩
  held := rfl
  states := fun _ member _ => member
  stack := .inl ⟨[], rfl, by simp⟩
  counted := fun _ _ => .inl

/-- Calls are left to be made last. -/
theorem trans (first : KeepsQueue c middle) (same : middle.stack = c.stack)
    (second : KeepsQueue middle next) : KeepsQueue c next := by
  obtain ⟨observations, log, off⟩ := first.log
  obtain ⟨observations', log', off'⟩ := second.log
  have instants : middle.instantIds = c.instantIds := by
    simp [Config.instantIds, log, (offQueue_histories off).1]
  refine ⟨second.queue.trans first.queue, ⟨observations ++ observations', by simp [log, log'], ?_⟩,
    second.held.trans first.held, ?_, same ▸ second.stack, ?_⟩
  · intro observation member
    rcases List.mem_append.mp member with member | member
    · exact off observation member
    · exact off' observation member
  · intro state member instant
    exact first.states state (second.states state member (instants ▸ instant)) instant
  · intro id instant known
    rcases first.counted id instant known with known | ⟨ended, gone⟩
    · rcases second.counted id (instants ▸ instant) known with known | ⟨ended, gone⟩
      · exact .inl known
      · obtain ⟨state, member, rfl, ended⟩ := ended
        exact .inr ⟨⟨state, first.states state member instant, rfl, ended⟩, gone⟩
    · refine .inr ⟨ended, fun state member same => ?_⟩
      exact gone state (second.states state member (by rw [instants, same]; exact instant)) same

theorem of_move (move : OrderMove c next) : KeepsQueue c next := by
  obtain ⟨_, _, _, _, _, agv⟩ := move.agv
  obtain ⟨observations, log, order⟩ := move.log
  refine ⟨by rw [agv], ⟨observations, log, fun observation member => ?_⟩, move.held, ?_, ?_, ?_⟩
  · exact Observation.isOffQueue_of_isOrderMove (order observation member)
  · rw [agv]
    exact fun _ member _ => member
  · rcases move.stack with ⟨-, frames, stack, order⟩ | crashed
    · exact .inl ⟨frames, stack, fun frame member =>
        Frame.isInert_of_isOrderFrame (order frame member)⟩
    · exact .inr crashed
  · simp only [Config.endedPublishCountKeys, agv]
    exact fun _ _ => .inl

end KeepsQueue

theorem Settled.push {stack : List Frame} {running waiting : List Action}
    (settled : Settled stack running waiting) (frames : List Frame)
    (pushed : ∀ frame ∈ frames, frame.isInert) :
    Settled (frames ++ stack) running waiting := by
  cases settled with
  | resting inert resting =>
      refine .resting (fun frame member => ?_) resting
      rcases List.mem_append.mp member with member | member
      · exact pushed frame member
      · exact inert frame member
  | loop split inert index stop pending waiting_eq chunk_parallel barrier parallel =>
      refine .loop (by rw [split, ← List.append_assoc]) (fun frame member => ?_) index stop pending
        waiting_eq chunk_parallel barrier parallel
      rw [List.append_assoc] at member
      rcases List.mem_append.mp member with member | member
      · exact pushed frame member
      · exact inert frame member

theorem Settled.pop {frame : Frame} {stack : List Frame} {running waiting : List Action}
    (settled : Settled (frame :: stack) running waiting) (popped : frame.isInert) :
    Settled stack running waiting := by
  cases settled with
  | resting inert resting =>
      exact .resting (fun other member => inert other (List.mem_cons_of_mem _ member)) resting
  | @loop before after i stopIndex stopDriving chunk behind split inert index stop pending
      waiting_eq chunk_parallel barrier parallel =>
      cases before with
      | nil =>
          have same : frame = .processInstantActions i stopIndex stopDriving := by
            simpa using congrArg List.head? split
          have positive : 0 < chunk.length := List.length_pos_iff.mpr pending
          simp only [same, Frame.isInert, Bool.not_eq_true', decide_eq_false_iff_not] at popped
          omega
      | cons top before =>
          have rest := (List.cons.inj split).2
          exact .loop rest (fun other member => inert other (List.mem_cons_of_mem _ member)) index
            stop pending waiting_eq chunk_parallel barrier parallel

/-- Only calls on the queue itself unsettle it. -/
theorem QueuePhase.settled_of_inert {stack : List Frame} {running waiting : List Action}
    (phase : QueuePhase stack running waiting)
    (inert : ∀ frame ∈ stack.head?, frame.isInert) : Settled stack running waiting := by
  cases phase with
  | settled settled => exact settled
  | restart top | extend top | hard top =>
      subst top
      simp [Frame.isInert] at inert

/-- Without a loop going on, a settled queue rests. -/
theorem Settled.resting_of_not_loop {stack : List Frame} {running waiting : List Action}
    (settled : Settled stack running waiting) (noLoop : ∀ frame ∈ stack, !frame.isLoop) :
    (∀ frame ∈ stack, frame.isInert) ∧ Resting running waiting := by
  cases settled with
  | resting inert resting => exact ⟨inert, resting⟩
  | loop split _ _ stop pending =>
      have going := noLoop _ (split ▸ List.mem_append_right _ List.mem_cons_self)
      have positive := List.length_pos_iff.mpr pending
      simp [Frame.isLoop] at going
      omega

/-- The books of an untouched queue, where other actions may be held. -/
theorem QueueBook.transfer {c : Config} {processed waiting : List Action}
    (book : QueueBook c processed waiting) (next : Config)
    (queue : next.agv.currentInstantActions = c.agv.currentInstantActions)
    (observations : List Observation) (log : next.log = c.log ++ observations)
    (off : ∀ observation ∈ observations, observation.isOffQueue)
    (states : ∀ state ∈ next.agv.currentState.actionStates, state.actionId ∈ c.instantIds →
      state ∈ c.agv.currentState.actionStates)
    (held : next.heldInstantActions ⊆ runningActions c.log processed)
    (unique : (actionIds next.heldInstantActions).Nodup) :
    QueueBook next processed waiting ∧
      runningActions next.log processed = runningActions c.log processed := by
  obtain ⟨accepted, dispatched, ended⟩ := offQueue_histories off
  have running : runningActions next.log processed = runningActions c.log processed := by
    simp [runningActions, log, ended]
  have instants : next.instantIds = c.instantIds := by simp [Config.instantIds, log, accepted]
  have known : ∀ id ∈ actionIds (runningActions c.log processed), id ∈ c.instantIds := by
    intro id member
    obtain ⟨action, included, rfl⟩ := List.mem_map.mp member
    refine List.mem_map_of_mem ?_
    rw [book.accepted]
    exact List.mem_append_left _ (List.mem_of_mem_filter included)
  have ordered : Library.Always DispatchedInOrder next.log := by
    rw [log]
    exact book.ordered.append fun past observation member =>
      dispatchedInOrder_of_isOffQueue (off observation member)
  refine ⟨⟨by simp [log, accepted, book.accepted], by simp [log, dispatched, book.dispatched],
    ordered, by rw [queue, running, book.queue], by simpa [log, ended] using book.ended,
    by rw [running]; exact held, unique, by rw [running]; exact book.alone, ?_, ?_⟩, running⟩
  · rw [running]
    intro state member own
    exact book.open_states state (states state member (known _ own)) own
  · rw [instants]
    intro state member instant
    exact book.not_waiting state (states state member instant) instant

/-- Steps that leave the queue alone preserve its books. -/
theorem QueueBook.keep {c next : Config} {processed waiting : List Action}
    (book : QueueBook c processed waiting) (kept : KeepsQueue c next) :
    QueueBook next processed waiting ∧
      runningActions next.log processed = runningActions c.log processed := by
  obtain ⟨observations, log, off⟩ := kept.log
  refine book.transfer next kept.queue observations log off kept.states ?_ ?_
  · rw [kept.held]
    exact book.held
  · rw [kept.held]
    exact book.unique

theorem QueueInvariant.keep {c next : Config} {processed waiting : List Action}
    (book : QueueBook c processed waiting)
    (settled : Settled c.stack (runningActions c.log processed) waiting)
    (kept : KeepsQueue c next) : QueueInvariant next := by
  obtain ⟨book, running⟩ := book.keep kept
  rcases kept.stack with ⟨frames, stack, pushed⟩ | ⟨crashed, empty⟩
  · refine .inr ⟨processed, waiting, book, ?_⟩
    rw [running, stack]
    exact .settled (settled.push frames pushed)
  · exact .inl ⟨crashed, empty, book.ordered⟩

/-! ## Dispatch of an action -/

namespace QueueBook

variable {c : Config} {processed waiting : List Action} {action : Action}

theorem nodup (book : QueueBook c processed waiting) (distinct : c.DistinctIds) :
    ((processed ++ waiting).map (·.actionId)).Nodup := by
  rw [← book.accepted]
  exact (List.nodup_append.mp distinct).2.1

/-- An action that has been accepted before a waiting one has been dispatched. -/
private theorem mem_processed_of_sublist (book : QueueBook c processed (action :: waiting))
    (distinct : c.DistinctIds) {earlier : Action}
    (sub : [earlier, action].Sublist (acceptedInstantActions c.log)) : earlier ∈ processed := by
  rw [book.accepted] at sub
  exact Library.mem_front_of_sublist (List.Nodup.of_map _ (book.nodup distinct)) sub

/-- The next waiting action is dispatched in order. -/
private theorem dispatchedInOrder (book : QueueBook c processed (action :: waiting))
    (distinct : c.DistinctIds) (alone : isHard action → runningActions c.log processed = [])
    (parallel : ∀ other ∈ runningActions c.log processed, isHard other = false) :
    DispatchedInOrder c.log (.instantActionProcessed (some action)) := by
  rintro _ ⟨⟩
  refine ⟨action, by simp [book.accepted], rfl, ?_, fun earlier sub hard => ?_⟩
  · rw [book.dispatched]
    intro again
    obtain ⟨same, member, equal⟩ := List.mem_map.mp again
    obtain rfl : same = action := by simpa using equal
    have unique := List.Nodup.of_map _ (book.nodup distinct)
    exact (List.nodup_append.mp unique).2.2 same member same List.mem_cons_self rfl
  · have member := book.mem_processed_of_sublist distinct sub
    by_contra running
    have open_ : earlier ∈ runningActions c.log processed :=
      List.mem_filter.mpr ⟨member, by simpa using running⟩
    rcases hard with hard | hard
    · simp [parallel earlier open_] at hard
    · simp [alone hard] at open_

private theorem not_mem_ended (book : QueueBook c processed (action :: waiting))
    (distinct : c.DistinctIds) : action.actionId ∉ actionIds processed := by
  have unique := book.nodup distinct
  rw [List.map_append, List.map_cons, List.nodup_append] at unique
  exact fun member => unique.2.2 _ member _ List.mem_cons_self rfl

private theorem mem_actionIds_of_running {log : List Observation} {id : String}
    (member : id ∈ actionIds (runningActions log processed)) : id ∈ actionIds processed :=
  (List.filter_sublist.map _).subset member

/-- The dispatched action is running. -/
theorem dispatch (book : QueueBook c processed (action :: waiting)) (distinct : c.DistinctIds)
    (alone : isHard action → runningActions c.log processed = [])
    (parallel : ∀ other ∈ runningActions c.log processed, isHard other = false) {next : Config}
    (same : next = (c.observe (.instantActionProcessed (some action))).resetEndedPublishCount
      action) :
    QueueBook next (processed ++ [action]) waiting ∧
      runningActions next.log (processed ++ [action]) =
        runningActions c.log processed ++ [action] := by
  have fresh := book.not_mem_ended distinct
  have open_ : action.actionId ∉ endedInstantActions c.log := fun ended =>
    fresh (book.ended _ ended)
  have log : next.log = c.log ++ [.instantActionProcessed (some action)] := same ▸ rfl
  have ended : endedInstantActions next.log = endedInstantActions c.log := by
    simp [log, endedInstantActions]
  have running : runningActions next.log (processed ++ [action]) =
      runningActions c.log processed ++ [action] := by
    simp [runningActions, ended, List.filter_append, open_]
  have held : next.heldInstantActions = c.heldInstantActions := same ▸ rfl
  have queue : next.agv.currentInstantActions = c.agv.currentInstantActions := same ▸ rfl
  have states : next.agv.currentState.actionStates = c.agv.currentState.actionStates := same ▸ rfl
  have accepted : acceptedInstantActions next.log = acceptedInstantActions c.log := by
    simp [log, acceptedInstantActions]
  refine ⟨⟨?_, ?_, ?_, ?_, ?_, ?_, ?_, ?_, ?_, ?_⟩, running⟩
  · simp [accepted, book.accepted]
  · rw [log, processedInstantActions_append, book.dispatched, List.map_append]
    rfl
  · rw [log, Library.Always.snoc_iff]
    exact ⟨book.ordered, book.dispatchedInOrder distinct alone parallel⟩
  · simp [queue, running, book.queue]
  · rw [ended]
    intro id member
    exact (List.sublist_append_left _ _).map _ |>.subset (book.ended id member)
  · rw [held, running]
    exact fun other member => List.mem_append_left _ (book.held member)
  · rw [held]
    exact book.unique
  · rw [running]
    intro other member hard
    rcases List.mem_append.mp member with member | member
    · simp [parallel other member] at hard
    · obtain rfl : other = action := by simpa using member
      rw [alone hard, List.nil_append]
  · rw [running, states]
    intro state member own
    rw [actionIds, List.map_append] at own
    rcases List.mem_append.mp own with own | own
    · exact book.open_states state member own
    · have own : state.actionId = action.actionId := by simpa using own
      have instant : state.actionId ∈ c.instantIds := by
        rw [own, Config.instantIds, book.accepted]
        exact List.mem_map_of_mem (by simp)
      exact absurd (own ▸ (book.not_waiting state member instant).1) fresh
  · rw [states]
    intro state member instant
    rw [Config.instantIds, accepted] at instant
    obtain ⟨known, status⟩ := book.not_waiting state member instant
    exact ⟨(List.sublist_append_left _ _).map _ |>.subset known, status⟩

/-- A running action reports a status other than its end. -/
theorem report (book : QueueBook c processed waiting) {next : Config}
    {context : ActionContext} {change : ActionStatusChangeInfo}
    (agv : c.agv.Reports (Config.newActionState context change) change.linkedState next.agv)
    (log : next.log = c.log ++ [.actionStatus context change.actionStatus])
    (executing : next.executing = c.executing)
    (member : context.action ∈ runningActions c.log processed)
    (status : change.actionStatus ≠ .waiting) (going : change.actionStatus.isEnded = false) :
    QueueBook next processed waiting ∧
      runningActions next.log processed = runningActions c.log processed := by
  obtain ⟨currentState, nextErrorRef, agv, states, -⟩ := agv
  have off : ∀ observation ∈ [Observation.actionStatus context change.actionStatus],
      observation.isOffQueue := by simp [Observation.isOffQueue, going]
  obtain ⟨accepted, dispatched, ended⟩ := offQueue_histories off
  have running : runningActions next.log processed = runningActions c.log processed := by
    simp [runningActions, log, ended]
  have held : next.heldInstantActions = c.heldInstantActions := by
    simp [Config.heldInstantActions, agv, executing]
  have instants : next.instantIds = c.instantIds := by simp [Config.instantIds, log, accepted]
  have ordered : Library.Always DispatchedInOrder next.log := by
    rw [log]
    exact book.ordered.append fun past observation member =>
      dispatchedInOrder_of_isOffQueue (off observation member)
  refine ⟨⟨by simp [log, accepted, book.accepted], by simp [log, dispatched, book.dispatched],
    ordered, by simp only [agv, running]; exact book.queue, by simpa [log, ended] using book.ended,
    by rw [held, running]; exact book.held, by rw [held]; exact book.unique,
    by rw [running]; exact book.alone, ?_, ?_⟩, running⟩
  · simp only [agv, states, running]
    intro state included own
    rcases mem_newActionStates included with rfl | included
    · exact going
    · exact book.open_states state included own
  · simp only [agv, states, instants]
    intro state included instant
    rcases mem_newActionStates included with rfl | included
    · exact ⟨mem_actionIds_of_running (List.mem_map_of_mem member), status⟩
    · exact book.not_waiting state included instant

end QueueBook

/-! ## The end of an action -/

private theorem spliceAction_split {before after : List Action} {action : Action}
    (front : ∀ other ∈ before, other.actionId ≠ action.actionId) :
    Config.spliceAction (before ++ action :: after) action = before ++ after := by
  simp only [Config.spliceAction, Library.findIdx?_key Action.actionId front]
  simp [List.eraseIdx_append_of_length_le]

private theorem instantActionEnded_split {c : Config} {before after : List Action} {action : Action}
    (queue : c.agv.currentInstantActions = before ++ action :: after)
    (front : ∀ other ∈ before, other.actionId ≠ action.actionId) :
    c.instantActionEnded action =
      if isHard action then
        (c.dequeue (before ++ after)).call [.processInstantActionChunk none false]
      else
        match (behindBatch after).head? with
        | none => c.dequeue (before ++ after)
        | some nextHardAction =>
            if c.agv.parallelActionsEnded false before.reverse &&
                c.agv.parallelActionsEnded false after then
              (c.dequeue (before ++ after)).call [.processInstantAction (some nextHardAction) true]
            else c.dequeue (before ++ after) := by
  unfold Config.instantActionEnded
  simp only [queue, spliceAction_split front,
    getHardBlockingActionAfterParallelActions_split front, areParallelActionsEnded_split front]
  rfl

namespace QueueBook

variable {c : Config} {processed waiting : List Action}

theorem nodup_running (book : QueueBook c processed waiting) (distinct : c.DistinctIds) :
    ((runningActions c.log processed ++ waiting).map (·.actionId)).Nodup :=
  (book.nodup distinct).sublist ((List.filter_sublist.append_right waiting).map _)

/-- The books after an action has ended and has been removed from the queue. -/
private theorem ended_next (book : QueueBook c processed waiting) {next : Config}
    {context : ActionContext} {change : ActionStatusChangeInfo} {before after : List Action}
    (split : runningActions c.log processed = before ++ context.action :: after)
    (front : ∀ other ∈ before, other.actionId ≠ context.action.actionId)
    (behind : ∀ other ∈ after, other.actionId ≠ context.action.actionId)
    (notHeld : ∀ other ∈ c.heldInstantActions, other.actionId ≠ context.action.actionId)
    (instant : context.scope = .instant) (ended : change.actionStatus.isEnded)
    (log : next.log = c.log ++ [.actionStatus context change.actionStatus])
    (states : next.agv.currentState.actionStates =
      Config.newActionStates c.agv.currentState.actionStates (Config.newActionState context change))
    (held : next.heldInstantActions = c.heldInstantActions)
    (queue : next.agv.currentInstantActions = before ++ (after ++ waiting)) :
    QueueBook next processed waiting ∧ runningActions next.log processed = before ++ after := by
  have endedIds : endedInstantActions next.log =
      endedInstantActions c.log ++ [context.action.actionId] := by
    simp [log, endedInstantActions, instant, ended]
  have accepted : acceptedInstantActions next.log = acceptedInstantActions c.log := by
    simp [log, acceptedInstantActions]
  have running : runningActions next.log processed = before ++ after := by
    rw [← Library.filter_key Action.actionId front behind, ← split]
    simp only [runningActions, endedIds, List.mem_append, List.mem_singleton, List.filter_filter]
    refine List.filter_congr fun other _ => ?_
    by_cases same : other.actionId = context.action.actionId <;> simp [same]
  have member : context.action ∈ runningActions c.log processed := by simp [split]
  have sub : ∀ other ∈ before ++ after, other ∈ runningActions c.log processed := by
    intro other included
    rw [split]
    rcases List.mem_append.mp included with included | included
    · exact List.mem_append_left _ included
    · exact List.mem_append_right _ (List.mem_cons_of_mem _ included)
  have different : ∀ other ∈ before ++ after, other.actionId ≠ context.action.actionId := by
    intro other included
    rcases List.mem_append.mp included with included | included
    · exact front other included
    · exact behind other included
  have dispatched : processedInstantActions next.log = processedInstantActions c.log := by
    simp [log, processedInstantActions]
  have ordered : Library.Always DispatchedInOrder next.log := by
    rw [log, Library.Always.snoc_iff]
    exact ⟨book.ordered, by rintro _ ⟨⟩⟩
  refine ⟨⟨by rw [accepted, book.accepted], by rw [dispatched, book.dispatched], ordered,
    by rw [queue, running, List.append_assoc], ?_, ?_, by rw [held]; exact book.unique, ?_, ?_, ?_⟩,
    running⟩
  · rw [endedIds]
    intro id included
    rcases List.mem_append.mp included with included | included
    · exact book.ended id included
    · obtain rfl : id = context.action.actionId := by simpa using included
      exact mem_actionIds_of_running (List.mem_map_of_mem member)
  · rw [held, running]
    intro other included
    have known := book.held included
    rw [split] at known
    rcases List.mem_append.mp known with known | known
    · exact List.mem_append_left _ known
    · rcases List.mem_cons.mp known with rfl | known
      · exact absurd rfl (notHeld context.action included)
      · exact List.mem_append_right _ known
  · rw [running]
    intro other included hard
    have alone := book.alone other (sub other included) hard
    rw [alone] at member
    obtain same : context.action = other := by simpa using member
    exact absurd (same ▸ rfl) (different other included)
  · rw [running, states]
    intro state included own
    obtain ⟨other, known, same⟩ := List.mem_map.mp own
    rcases mem_newActionStates included with rfl | included
    · exact absurd same (different other known)
    · exact book.open_states state included (same ▸ List.mem_map_of_mem (sub other known))
  · rw [states, Config.instantIds, accepted]
    intro state included own
    rcases mem_newActionStates included with rfl | included
    · refine ⟨mem_actionIds_of_running (List.mem_map_of_mem member), ?_⟩
      simp only [Config.newActionState]
      intro waiting
      rw [waiting] at ended
      cases ended
    · exact book.not_waiting state included own

/-- Running actions have not ended by the action states either. -/
private theorem not_isActionEnded (book : QueueBook c processed waiting) {action : Action}
    (member : action ∈ runningActions c.log processed) : c.agv.isActionEnded action = false := by
  unfold isActionEnded
  split
  · rfl
  · next state found =>
    have same : state.actionId = action.actionId := by simpa using List.find?_some found
    exact book.open_states state (List.mem_of_find?_eq_some found)
      (same ▸ List.mem_map_of_mem member)

end QueueBook

/-- A resting queue goes on as soon as nothing is running any more. -/
theorem QueueInvariant.end_action {c : Config} {processed waiting : List Action}
    (book : QueueBook c processed waiting) (distinct : c.DistinctIds) {context : ActionContext}
    {change : ActionStatusChangeInfo} (member : context.action ∈ runningActions c.log processed)
    (notHeld : ∀ other ∈ c.heldInstantActions, other.actionId ≠ context.action.actionId)
    (instant : context.scope = .instant) (ended : change.actionStatus.isEnded)
    (vehicle : change.linkedState.isVehicleState) (inert : ∀ frame ∈ c.stack, frame.isInert)
    (resting : Resting (runningActions c.log processed) waiting) :
    QueueInvariant (c.updateActionStatus context change) := by
  have unique := book.nodup_running distinct
  rw [List.map_append, List.nodup_append] at unique
  obtain ⟨before, after, split, front, behind⟩ :=
    Library.split_of_mem Action.actionId unique.1 member
  obtain ⟨currentState, nextErrorRef, agv, states, -⟩ :=
    Config.reportActionStatus_agv c context change vehicle
  have log := Config.reportActionStatus_log c context change
  have stack := Config.reportActionStatus_stack c context change
  have reportedStates : (c.reportActionStatus context change).agv.currentState.actionStates =
      Config.newActionStates c.agv.currentState.actionStates
        (Config.newActionState context change) := by simp only [agv, states]
  have held : (c.reportActionStatus context change).heldInstantActions = c.heldInstantActions := by
    simp [Config.heldInstantActions, agv]
  have queue : (c.reportActionStatus context change).agv.currentInstantActions =
      before ++ context.action :: (after ++ waiting) := by
    simp only [agv, book.queue, split, List.append_assoc, List.cons_append]
  have next : ∀ frames, QueueBook
      (((c.reportActionStatus context change).dequeue (before ++ (after ++ waiting))).call frames)
        processed waiting ∧
      runningActions (((c.reportActionStatus context change).dequeue
        (before ++ (after ++ waiting))).call frames).log processed = before ++ after :=
    fun frames => book.ended_next split front behind notHeld instant ended log reportedStates held rfl
  have finish : ∀ frames, QueuePhase (frames ++ c.stack) (before ++ after) waiting →
      QueueInvariant
        (((c.reportActionStatus context change).dequeue (before ++ (after ++ waiting))).call
          frames) := by
    intro frames phase
    obtain ⟨book', running⟩ := next frames
    refine .inr ⟨processed, waiting, book', ?_⟩
    rw [running, show (((c.reportActionStatus context change).dequeue
      (before ++ (after ++ waiting))).call frames).stack = frames ++ c.stack from
        congrArg (frames ++ ·) stack]
    exact phase
  have updated : c.updateActionStatus context change =
      (c.reportActionStatus context change).instantActionEnded context.action := by
    simp [Config.updateActionStatus, ended, instant]
  rw [updated, instantActionEnded_split queue front]
  split
  · next hard =>
    -- a HARD action was alone, the rest of the queue is started over
    have alone := book.alone context.action member hard
    obtain ⟨rfl, rfl⟩ : before = [] ∧ after = [] := by
      rw [split] at alone
      have length := congrArg List.length alone
      simp only [List.length_append, List.length_cons, List.length_nil] at length
      exact ⟨List.length_eq_zero_iff.mp (by omega), List.length_eq_zero_iff.mp (by omega)⟩
    exact finish _ (.restart rfl inert rfl)
  · next soft =>
    have parallel : ∀ other ∈ runningActions c.log processed, isHard other = false := by
      intro other known
      refine Bool.eq_false_iff.mpr fun hard => ?_
      rw [book.alone other known hard] at member
      obtain rfl : context.action = other := by simpa using member
      exact soft hard
    have parallel' : ∀ other ∈ before ++ after, isHard other = false := by
      intro other known
      refine parallel other (split ▸ ?_)
      rcases List.mem_append.mp known with known | known
      · exact List.mem_append_left _ known
      · exact List.mem_append_right _ (List.mem_cons_of_mem _ known)
    have barrier : ∀ action ∈ waiting.head?, isHard action := by
      rcases resting with rfl | ⟨-, ⟨action, rest, rfl, hard⟩ | ⟨action, single, hard⟩⟩
      · simp
      · simpa using hard
      · simp [parallel action (by simp [single])] at hard
    have going : ∀ other ∈ before ++ after,
        (c.reportActionStatus context change).agv.isActionEnded other = false := by
      intro other known
      obtain ⟨book', running⟩ := next []
      exact book'.not_isActionEnded (running ▸ known)
    have behindEq : behindBatch (after ++ waiting) = waiting := by
      rw [behindBatch_append fun other known => parallel' other (List.mem_append_right _ known),
        behindBatch_of_head_isHard barrier]
    have front : (c.reportActionStatus context change).agv.parallelActionsEnded false
        (before.reverse ++ []) = before.reverse.isEmpty :=
      parallelActionsEnded_of_open
        (fun other known => parallel' other (List.mem_append_left _ (List.mem_reverse.mp known)))
        (fun other known => going other (List.mem_append_left _ (List.mem_reverse.mp known)))
        (by simp)
    have back := parallelActionsEnded_of_open
      (fun other known => parallel' other (List.mem_append_right _ known))
      (fun other known => going other (List.mem_append_right _ known)) barrier
    rw [List.append_nil] at front
    rw [behindEq, front, back]
    split
    · next none =>
      obtain rfl : waiting = [] := List.head?_eq_none_iff.mp none
      exact finish [] (.settled (.resting inert (.inl rfl)))
    · next nextHardAction found =>
      obtain ⟨rest, rfl⟩ : ∃ rest, waiting = nextHardAction :: rest :=
        ⟨waiting.tail, (List.cons_head?_tail found).symm⟩
      split
      · next done =>
        obtain ⟨rfl, rfl⟩ : before = [] ∧ after = [] := by simpa using done
        exact finish _ (.hard rfl inert rfl rfl (barrier nextHardAction rfl))
      · next others =>
        refine finish [] (.settled (.resting inert (.inr ⟨?_, .inl ⟨_, rest, rfl, barrier _ rfl⟩⟩)))
        intro empty
        obtain ⟨rfl, rfl⟩ := List.append_eq_nil_iff.mp empty
        simp at others

/-! ## Dispatching -/

private theorem QueueBook.not_mem_held {c : Config} {processed waiting : List Action}
    {action : Action}
    (book : QueueBook c processed (action :: waiting)) (distinct : c.DistinctIds) :
    ∀ other ∈ c.heldInstantActions, other.actionId ≠ action.actionId := by
  intro other member same
  refine book.not_mem_ended distinct ?_
  rw [← same]
  exact QueueBook.mem_actionIds_of_running (List.mem_map_of_mem (book.held member))

/-- The adapter starts to execute a running action. -/
theorem QueueInvariant.executeInstantAction {c : Config} {processed waiting : List Action}
    (book : QueueBook c processed waiting) {context : ActionContext}
    (instant : context.scope = .instant)
    (member : context.action ∈ runningActions c.log processed)
    (notHeld : ∀ other ∈ c.heldInstantActions, other.actionId ≠ context.action.actionId)
    (settled : Settled c.stack (runningActions c.log processed) waiting) :
    QueueInvariant (c.executeInstantAction context) := by
  have held : (c.executeInstantAction context).heldInstantActions =
      context.action :: c.heldInstantActions := by
    simp [Config.executeInstantAction, Config.heldInstantActions, Config.call, Config.observe,
      instant]
  obtain ⟨book', running⟩ := book.transfer (c.executeInstantAction context) rfl
    [.executeAction context] rfl (by simp [Observation.isOffQueue]) (fun _ member _ => member)
    (by
      rw [held]
      exact List.cons_subset.mpr ⟨member, book.held⟩)
    (by
      rw [held]
      refine List.nodup_cons.mpr ⟨fun again => ?_, book.unique⟩
      obtain ⟨other, included, same⟩ := List.mem_map.mp again
      exact notHeld other included same)
  refine .inr ⟨processed, waiting, book', ?_⟩
  rw [running]
  exact .settled (settled.push [.adapter] (by simp [Frame.isInert]))

private theorem failWaitingAction_of_not_waiting (agv : AgvController) {state : ActionState}
    (status : state.actionStatus ≠ .waiting) : Config.failWaitingAction agv state = state := by
  simp [Config.failWaitingAction, status]

private theorem heldInstantActions_startCancelation (c : Config) (context : ActionContext) :
    (c.startCancelation context).heldInstantActions =
      (c.executing.filter (·.scope = .instant)).map (·.action) ++ [context.action] := rfl

/-- The controller starts to cancel the order on behalf of a running action. -/
theorem QueueInvariant.cancelOrder {c : Config} {processed waiting : List Action}
    (book : QueueBook c processed waiting) {context : ActionContext}
    (member : context.action ∈ runningActions c.log processed)
    (notHeld : ∀ other ∈ c.heldInstantActions, other.actionId ≠ context.action.actionId)
    (settled : Settled c.stack (runningActions c.log processed) waiting) :
    QueueInvariant (c.cancelOrder context) := by
  have executing : ∀ other ∈ (c.executing.filter (·.scope = .instant)).map (·.action),
      other ∈ c.heldInstantActions := fun other => List.mem_append_left _
  obtain ⟨failed, running⟩ := book.transfer
    ((c.observe (.cancelOrder context c.agv.hasActiveOrder c.agv.hasCancelingOrder)).startCancelation
      context) rfl [.cancelOrder context c.agv.hasActiveOrder c.agv.hasCancelingOrder] rfl
    (by simp [Observation.isOffQueue])
    (by
      intro state included instant
      obtain ⟨original, known, rfl⟩ := List.mem_map.mp included
      rw [Config.failWaitingAction_actionId] at instant
      rw [failWaitingAction_of_not_waiting _ (book.not_waiting original known instant).2]
      exact known)
    (by
      intro other included
      rcases List.mem_append.mp included with included | included
      · exact book.held (executing other included)
      · exact List.mem_singleton.mp included ▸ member)
    (by
      have unique := book.unique
      rw [actionIds, Config.heldInstantActions, List.map_append, List.nodup_append] at unique
      rw [actionIds, heldInstantActions_startCancelation, List.map_append, List.nodup_append]
      refine ⟨unique.1, by simp, fun id known added new clash => ?_⟩
      obtain ⟨other, included, rfl⟩ := List.mem_map.mp known
      obtain rfl : added = context.action.actionId := by simpa using new
      exact notHeld other (executing other included) clash)
  obtain ⟨reported, running'⟩ := failed.report
    (Config.reportActionStatus_agv _ context { actionStatus := .running }
      PartialState.isVehicleState_empty)
    (Config.reportActionStatus_log _ context { actionStatus := .running })
    (Config.reportActionStatus_executing _ context { actionStatus := .running })
    (running ▸ member) (by simp) rfl
  rw [Config.cancelOrder_eq]
  refine .inr ⟨processed, waiting, { reported with }, .settled ?_⟩
  have stack : (c.cancelationStarted context).stack = c.stack :=
    Config.reportActionStatus_stack _ context _
  rw [Config.call, stack]
  refine Settled.push ?_ _ (by simp [Frame.isInert])
  exact (running'.trans running).symm ▸ settled

/-- Dispatching the next waiting action settles the queue again, provided that
an action that ends at once is the last one of its loop. -/
theorem QueueInvariant.processInstantAction {c : Config} {processed waiting : List Action}
    {action : Action} (book : QueueBook c processed (action :: waiting))
    (distinct : c.DistinctIds)
    (alone : isHard action → runningActions c.log processed = [])
    (parallel : ∀ other ∈ runningActions c.log processed, isHard other = false)
    (settled : Settled c.stack (runningActions c.log processed ++ [action]) waiting)
    (undisturbed : action.actionType = "stateRequest" → ∀ frame ∈ c.stack, !frame.isLoop)
    (stopDriving : Bool) :
    QueueInvariant (c.processInstantAction (some action) stopDriving) := by
  obtain ⟨book', running⟩ := book.dispatch distinct alone parallel rfl
  have notHeld := book.not_mem_held distinct
  rw [← running] at settled
  have member : action ∈ runningActions
      ((c.observe (.instantActionProcessed (some action))).resetEndedPublishCount action).log
        (processed ++ [action]) := by
    rw [running]
    exact List.mem_append_right _ List.mem_cons_self
  unfold Config.processInstantAction
  simp only
  split
  · exact .inl ⟨rfl, rfl, book'.ordered⟩
  split
  · next stateRequest =>
    obtain ⟨inert, resting⟩ := settled.resting_of_not_loop (undisturbed stateRequest)
    exact .end_action book' (distinct.of_quiet (.of_log_concat _ rfl rfl)) member notHeld rfl rfl
      PartialState.isVehicleState_empty inert resting
  · split
    · exact .cancelOrder book' member notHeld settled
    · exact .executeInstantAction book' rfl member notHeld settled

/-! ## Chunks of the queue -/

/-- What `_processInstantActionChunk` triggers behind the given position. -/
private theorem processInstantActionChunk_cases (c : Config) (afterAction : Option Action)
    (skipInitialHard : Bool) {before rest : List Action}
    (queue : c.agv.currentInstantActions = before ++ rest)
    (start : startIndex c.agv.currentInstantActions afterAction = before.length) :
    (batch rest ≠ [] ∧ ∃ stopDriving,
        c.processInstantActionChunk afterAction skipInitialHard =
          c.call [.processInstantActions before.length (before.length + (batch rest).length)
            stopDriving]) ∨
      (batch rest = [] ∧ (rest = [] ∨ skipInitialHard) ∧
        c.processInstantActionChunk afterAction skipInitialHard = c) ∨
      ∃ action behind, rest = action :: behind ∧ isHard action ∧ skipInitialHard = false ∧
        c.processInstantActionChunk afterAction skipInitialHard =
          c.call [.processInstantAction (some action) true] := by
  have dropped : c.agv.currentInstantActions.drop before.length = rest := by simp [queue]
  have inside : before.length ≤ c.agv.currentInstantActions.length := by simp [queue]
  obtain ⟨hardFound, stop⟩ := findIndexFrom_isHard inside
  rw [dropped] at hardFound stop
  unfold Config.processInstantActionChunk
  simp only [start, stop]
  cases chunk : batch rest with
  | cons action actions =>
      refine .inl ?_
      rw [if_neg (by simp)]
      exact ⟨by simp, _, rfl⟩
  | nil =>
      refine .inr ?_
      rw [if_pos (by simp)]
      have whole : behindBatch rest = rest := by
        have parts := batch_append_behindBatch rest
        rwa [chunk, List.nil_append] at parts
      cases rest with
      | nil =>
          refine .inl ⟨rfl, .inl rfl, if_neg ?_⟩
          have absent : ¬(findIndexFrom isHard before.length c.agv.currentInstantActions).isSome :=
            fun found => hardFound.mp found rfl
          simp [absent]
      | cons action behind =>
          cases skipInitialHard with
          | true => exact .inl ⟨rfl, .inr rfl, by simp⟩
          | false =>
              refine .inr ⟨action, behind, rfl, isHard_of_behindBatch_cons whole, rfl, ?_⟩
              have found := hardFound.mpr (by simp [whole])
              rw [if_pos (by simp [found])]
              simp [queue]

/-- The rest of the queue behind its running actions is taken up. -/
theorem QueueInvariant.processInstantActionChunk {c : Config} {processed waiting : List Action}
    (book : QueueBook c processed waiting) (inert : ∀ frame ∈ c.stack, frame.isInert)
    (afterAction : Option Action) (skipInitialHard : Bool)
    (start : startIndex c.agv.currentInstantActions afterAction =
      (runningActions c.log processed).length)
    (parallel : ∀ action ∈ runningActions c.log processed, isHard action = false)
    (skip : skipInitialHard = !(runningActions c.log processed).isEmpty) :
    QueueInvariant (c.processInstantActionChunk afterAction skipInitialHard) := by
  rcases processInstantActionChunk_cases c afterAction skipInitialHard book.queue start with
    ⟨pending, stopDriving, same⟩ | ⟨none, nothing, same⟩ | ⟨action, behind, rfl, hard, noSkip, same⟩
  · rw [same]
    refine .inr ⟨processed, waiting, { book with }, .settled ?_⟩
    refine .loop (List.nil_append _).symm (by simpa using inert) rfl rfl pending
      (batch_append_behindBatch waiting).symm (fun action => not_isHard_of_mem_batch) ?_ parallel
    intro action first
    obtain ⟨behind, first⟩ : ∃ behind, behindBatch waiting = action :: behind :=
      ⟨(behindBatch waiting).tail, (List.cons_head?_tail first).symm⟩
    exact isHard_of_behindBatch_cons first
  · rw [same]
    refine .inr ⟨processed, waiting, book, .settled (.resting inert ?_)⟩
    cases waiting with
    | nil => exact .inl rfl
    | cons action behind =>
        refine .inr ⟨?_, .inl ⟨action, behind, rfl, ?_⟩⟩
        · rcases nothing with empty | skipped
          · cases empty
          · simpa [skipped] using skip
        · by_contra soft
          simp [batch, soft] at none
  · rw [same]
    refine .inr ⟨processed, _, { book with }, .hard rfl inert ?_ rfl hard⟩
    show runningActions c.log processed = []
    simpa [noSkip] using skip

end Vda5050
