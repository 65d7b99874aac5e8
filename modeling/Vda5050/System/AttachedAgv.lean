import Vda5050.AgvController.Invocations
import Vda5050.System.VirtualAgv
import Vda5050.VirtualAgvAdapter.Answers
import Vda5050.VirtualAgvAdapter.Obligations

/-!
# An AGV controller with the virtual AGV attached

The controller invokes the handlers of the virtual AGV and asks it for answers, and the
virtual AGV calls back. Nothing is left to an environment but messages, timers and the
connection: the virtual AGV keeps the contract an adapter has with its controller.
-/

set_option autoImplicit false

namespace Vda5050

open AgvController Library VirtualAgvAdapter

/-! ## Handlers -/

/-- The handler of the adapter that is invoked. -/
def Observation.handler : Observation → Option AdapterEvent
  | .executeAction context => some (.executeAction context)
  | .finishEdgeAction context => some (.finishEdgeAction context)
  | .cancelAction (some context) => some (.cancelAction context)
  | .traverseEdge context => some (.traverseEdge context)
  | .stopTraverse context => some (.stopTraverse context)
  | _ => none

/-- An exception that is thrown by a handler of the virtual AGV. -/
inductive HandlerException where
  /-- There is no definition of the action to be executed. -/
  | undefinedAction
  /-- There is no context to cancel the action in. -/
  | undefinedContext
  /-- A parameter cannot be checked. -/
  | uncheckedParameter
  deriving DecidableEq, Repr

/-- The exception that is thrown by the invoked handler. -/
def Observation.throws : Observation → Option HandlerException
  | .executeAction context =>
      if (getActionDefinition context.action context.scope).isNone then some .undefinedAction
      else none
  | .cancelAction none => some .undefinedContext
  | _ => none

/-- An order gets as far as the check of its actions, one of which throws. None of an instant
action does, see `exists_checkActionExecutable`. -/
def AgvController.throwsOnCheck (agv : AgvController) (answers : AdapterAnswers) : Event → Bool
  | .order order _ =>
      (validateOrderConstraints order).isOk && !agv.hasCancelingOrder &&
        (checkRouteTraversable answers order).isNone &&
          !(checkActionsExecutable (orderActionContexts order)).isOk
  | _ => false

/-- The adapter answers for itself. -/
def Event.answeredBy (answers : AdapterAnswers) : Event → Event
  | .order message _ => .order message answers
  | .instantActions message _ => .instantActions message answers
  | event => event

/-- What the controller asks is answered by the virtual AGV. -/
def Event.IsAnswered (math : MathLibrary) (tolerances : DeviationTolerances) (event : Event) :
    Prop :=
  ∃ adapter : VirtualAgvAdapter, event.answeredBy (adapter.answers math tolerances) = event

/-- The node object an event of the controller updates. -/
def Config.updatedNode (c : Config) : Event → Option Node
  | .order order adapter => c.stitchedNode order adapter
  | _ => none

namespace VirtualAgvAdapter

variable (math : MathLibrary) (options : VirtualAgvAdapterOptions)

/-- The contexts held by the adapter refer to node objects of the controller. -/
def replaceStitched (adapter : VirtualAgvAdapter) : Option Node → VirtualAgvAdapter
  | none => adapter
  | some updated =>
      { adapter with
        actionStateMachines := adapter.actionStateMachines.map fun asm =>
          { asm with actionContext := asm.actionContext.replaceNode updated }
        traverseContext := adapter.traverseContext.map (·.replaceNode updated) }

/-- A handler runs to its end. Its calls are made by the controller afterwards. -/
def invoke (adapter : VirtualAgvAdapter) (observation : Observation) : VirtualAgvAdapter :=
  (observation.handler.bind (step math options adapter)).getD adapter

def invokeAll (adapter : VirtualAgvAdapter) (observations : List Observation) :
    VirtualAgvAdapter :=
  observations.foldl (invoke math options) adapter

def AdapterEvent.isTick : AdapterEvent → Bool
  | .onTick _ | .proceed _ => true
  | _ => false

end VirtualAgvAdapter

/-! ## The attached vehicle -/

/-- A controller with its adapter, and the calls that the running handler or part of a tick
has still to make. An exception that is thrown by a handler ends the run, as nothing catches it
on the way to the MQTT client or to the timer. -/
structure AttachedAgv where
  controller : Config
  adapter : VirtualAgvAdapter
  calls : List ControllerCall := []
  aborted : Option HandlerException := none

inductive AttachedAgvEvent where
  /-- A message, a timer, an acknowledgement, the connection, or the next call on the stack. -/
  | controller (event : Event)
  /-- The next call of the adapter. -/
  | callback (event : Event)
  | tick (event : AdapterEvent)

/-- Time does not go backwards. -/
def AttachedAgvEvent.IsForward : AttachedAgvEvent → Prop
  | .tick (.onTick realInterval) => 0 ≤ realInterval
  | _ => True

namespace AttachedAgv

variable (math : MathLibrary) (options : VirtualAgvAdapterOptions)
  (tolerances : DeviationTolerances) (vehicle : AttachedAgv)

/-- The controller goes on if the adapter has made its calls, or while it performs one of
them. Messages and timers wait until neither the controller nor a tick is running. -/
def mayAct : Event → Bool
  | .proceed => vehicle.calls.isEmpty || vehicle.controller.stack.head? ≠ some .adapter
  | event => event.isOwn && vehicle.calls.isEmpty && vehicle.adapter.ongoingTick.isNone

/-- The controller has performed an event: handlers it has invoked run, and make their calls
before those left. -/
def invoked (event : Event) (calls : List ControllerCall) (controller : Config) : AttachedAgv :=
  let observations := controller.log.drop vehicle.controller.log.length
  let shared := vehicle.adapter.replaceStitched (vehicle.controller.updatedNode event)
  let adapter := shared.invokeAll math options observations
  { controller, adapter
    calls := adapter.calls.drop shared.calls.length ++ calls
    aborted := observations.findSome? (·.throws) }

def act (event : Event) (calls : List ControllerCall) : Option AttachedAgv :=
  (vehicle.controller.step event).map (vehicle.invoked math options event calls)

def step (vehicle : AttachedAgv) (event : AttachedAgvEvent) : Option AttachedAgv :=
  if vehicle.aborted.isSome then none
  else
    match event with
    | .controller event =>
        let answers := vehicle.adapter.answers math tolerances
        if vehicle.mayAct event then
          if vehicle.controller.enabled event &&
              vehicle.controller.agv.throwsOnCheck answers event then
            some { vehicle with aborted := some .uncheckedParameter }
          else vehicle.act math options (event.answeredBy answers) vehicle.calls
        else none
    | .callback event =>
        match vehicle.calls with
        | [] => none
        | call :: calls =>
            if call.performs event then vehicle.act math options event calls else none
    | .tick event =>
        if event.isTick && vehicle.calls.isEmpty && vehicle.controller.isIdle then
          (vehicle.adapter.step math options event).map fun adapter =>
            { vehicle with
              adapter := adapter
              calls := adapter.calls.drop vehicle.adapter.calls.length }
        else none

/-- The vehicle after `attach`. -/
def attached (limit : Nat) : AttachedAgv where
  controller := (VirtualAgv.attached options limit).controller
  adapter := (VirtualAgv.attached options limit).adapter

/-- ActionIds are distinct. -/
def DistinctActions (vehicle : AttachedAgv) : AttachedAgvEvent → Prop
  | .controller event => DistinctActionIds vehicle.controller
      (event.answeredBy (vehicle.adapter.answers math tolerances))
  | _ => True

abbrev AttachedAgvRun (limit : Nat) : List AttachedAgvEvent → AttachedAgv → Prop :=
  Run (step math options tolerances) (DistinctActions math tolerances) (attached options limit)

end AttachedAgv

/-! ## Handlers that run -/

variable {math : MathLibrary} {options : VirtualAgvAdapterOptions}
  {tolerances : DeviationTolerances}

/-- What the adapter owes the controller after some handlers have run. -/
structure Handles (observations : List Observation) (before after : VirtualAgvAdapter)
    (calls : List ControllerCall) : Prop where
  grown : after.calls = before.calls ++ calls
  numbered : Numbered after
  statuses : HaveStatuses after
  actions : Settles before.actionContexts (observations.filterMap (·.executes))
    after.actionContexts (calls.filterMap (·.ends))
  traversals : Settles before.traverseContext.toList (observations.filterMap (·.traverses))
    after.traverseContext.toList (calls.filterMap (·.arrives))
  stops : Settles [] (observations.filterMap (·.stops)) [] (calls.filterMap (·.halts))
  due : ∀ call ∈ calls, call.IsDue after.actionContexts
  held : before.actionContexts ⊆ after.actionContexts

private theorem ControllerCall.isDue_mono {call : ControllerCall} {held later : List ActionContext}
    (due : call.IsDue held) (grown : held ⊆ later) : call.IsDue later := by
  cases call with
  | updateActionStatus context actionStatus =>
      cases actionStatus with
      | none => exact due
      | some actionStatus => exact ⟨due.1, fun ongoing => grown (due.2 ongoing)⟩
  | _ => trivial

namespace Handles

variable {before middle after : VirtualAgvAdapter} {observations later : List Observation}
  {calls more : List ControllerCall}

theorem refl (numbered : Numbered before) (statuses : HaveStatuses before) :
    Handles [] before before [] where
  grown := (List.append_nil _).symm
  numbered := numbered
  statuses := statuses
  actions := .keep _ _
  traversals := .keep _ _
  stops := .keep _ _
  due := by simp
  held := List.Subset.refl _

theorem trans (first : Handles observations before middle calls)
    (second : Handles later middle after more) :
    Handles (observations ++ later) before after (calls ++ more) where
  grown := by rw [second.grown, first.grown, List.append_assoc]
  numbered := second.numbered
  statuses := second.statuses
  actions := by
    rw [List.filterMap_append, List.filterMap_append]
    exact first.actions.trans second.actions
  traversals := by
    rw [List.filterMap_append, List.filterMap_append]
    exact first.traversals.trans second.traversals
  stops := by
    rw [List.filterMap_append, List.filterMap_append]
    exact first.stops.trans second.stops
  due call member := by
    rcases List.mem_append.mp member with early | late
    · exact ControllerCall.isDue_mono (first.due call early) second.held
    · exact second.due call late
  held _ member := second.held (first.held member)

end Handles

/-- What is handed over with an observation. -/
private theorem handedOver_of_handler {observation : Observation} {event : AdapterEvent}
    (invoked : observation.handler = some event) :
    event.executes = observation.executes.toList ∧
      event.traverses = observation.traverses.toList ∧
      event.stops = observation.stops.toList := by
  cases observation with
  | executeAction | finishEdgeAction | traverseEdge | stopTraverse =>
      obtain rfl := Option.some.inj invoked
      exact ⟨rfl, rfl, rfl⟩
  | cancelAction context =>
      cases context with
      | none => cases invoked
      | some context =>
          obtain rfl := Option.some.inj invoked
          exact ⟨rfl, rfl, rfl⟩
  | _ => cases invoked

theorem nothingHandedOver {observation : Observation} (uninvoked : observation.handler = none) :
    observation.executes = none ∧ observation.traverses = none ∧ observation.stops = none := by
  cases observation with
  | executeAction | finishEdgeAction | traverseEdge | stopTraverse => cases uninvoked
  | _ => exact ⟨rfl, rfl, rfl⟩

/-- Handlers are no parts of a tick, and always run. -/
theorem exists_step_of_handler (math : MathLibrary) (options : VirtualAgvAdapterOptions)
    {observation : Observation} {event : AdapterEvent}
    (invoked : observation.handler = some event) (adapter : VirtualAgvAdapter) :
    (∀ inputs, event ≠ .proceed inputs) ∧
      ∃ after, VirtualAgvAdapter.step math options adapter event = some after := by
  cases observation with
  | executeAction | finishEdgeAction | traverseEdge | stopTraverse =>
      obtain rfl := Option.some.inj invoked
      exact ⟨by simp, _, rfl⟩
  | cancelAction context =>
      cases context with
      | none => cases invoked
      | some context =>
          obtain rfl := Option.some.inj invoked
          exact ⟨by simp, _, rfl⟩
  | _ => cases invoked

private theorem invoke_handles {adapter : VirtualAgvAdapter} (numbered : Numbered adapter)
    (statuses : HaveStatuses adapter) (observation : Observation) :
    ∃ calls, Handles [observation] adapter (adapter.invoke math options observation) calls := by
  unfold invoke
  cases invoked : observation.handler with
  | none =>
      obtain ⟨executes, traverses, stops⟩ := nothingHandedOver invoked
      refine ⟨[], (List.append_nil _).symm, numbered, statuses, ?_, ?_, ?_, by simp,
        List.Subset.refl _⟩
      · rw [List.filterMap_cons_none executes]
        exact .keep _ _
      · rw [List.filterMap_cons_none traverses]
        exact .keep _ _
      · rw [List.filterMap_cons_none stops]
        exact .keep _ _
  | some event =>
      obtain ⟨executes, traverses, stops⟩ := handedOver_of_handler invoked
      obtain ⟨handled, after, stepped⟩ := exists_step_of_handler math options invoked adapter
      obtain ⟨calls, accounts⟩ := step_accountsFor numbered statuses stepped
      rw [Option.bind_some, stepped, Option.getD_some]
      refine ⟨calls, accounts.grown, numbered.of_step stepped, accounts.statuses, ?_, ?_, ?_,
        accounts.due, held_of_step numbered handled stepped⟩
      · rw [filterMap_singleton, ← executes]
        exact accounts.actions
      · rw [filterMap_singleton, ← traverses]
        exact accounts.traversals
      · rw [filterMap_singleton, ← stops]
        exact accounts.stops

private theorem invokeAll_handles {adapter : VirtualAgvAdapter} (numbered : Numbered adapter)
    (statuses : HaveStatuses adapter) (observations : List Observation) :
    ∃ calls, Handles observations adapter (adapter.invokeAll math options observations) calls := by
  induction observations generalizing adapter with
  | nil => exact ⟨[], .refl numbered statuses⟩
  | cons observation observations ih =>
      have handled : ∃ calls, Handles [observation] adapter
          (adapter.invoke math options observation) calls :=
        invoke_handles numbered statuses observation
      obtain ⟨calls, first⟩ := handled
      obtain ⟨more, rest⟩ := ih first.numbered first.statuses
      exact ⟨calls ++ more, first.trans rest⟩

/-- Machines keep their identities when a node object is updated. -/
theorem VirtualAgvAdapter.Numbered.replaceStitched {adapter : VirtualAgvAdapter}
    (numbered : Numbered adapter) (updated : Option Node) :
    Numbered (adapter.replaceStitched updated) := by
  cases updated with
  | none => exact numbered
  | some updated =>
      have refs : (adapter.replaceStitched (some updated)).activeActions.map (·.ref) =
          adapter.activeActions.map (·.ref) := by
        simp [activeActions, VirtualAgvAdapter.replaceStitched, Function.comp_def,
          ActionStateMachine.activeAction]
      refine ⟨refs ▸ numbered.unique, fun active member => ?_⟩
      have known : active.ref ∈ adapter.activeActions.map (·.ref) :=
        refs ▸ List.mem_map_of_mem member
      obtain ⟨earlier, held, same⟩ := List.mem_map.mp known
      exact same ▸ numbered.below earlier held

/-! ## What the adapter owes -/

/-- What the adapter holds and is about to call back is pending at the controller. -/
structure Owes (c : Config) (adapter : VirtualAgvAdapter) (calls : List ControllerCall) :
    Prop where
  numbered : Numbered adapter
  statuses : HaveStatuses adapter
  actions : Settles c.executing [] adapter.actionContexts (calls.filterMap (·.ends))
  traversals : Settles c.traversing [] adapter.traverseContext.toList (calls.filterMap (·.arrives))
  stops : Settles c.stopping [] [] (calls.filterMap (·.halts))
  due : ∀ call ∈ calls, call.IsDue adapter.actionContexts

private theorem isVehicleState_of_describes {linkedState : LinkedState} {state : PartialState}
    (describes : linkedState.describes state = true) : state.isVehicleState := by
  rw [of_decide_eq_true describes]
  exact ⟨rfl, rfl, rfl, rfl, rfl⟩

namespace Owes

variable {c : Config} {adapter : VirtualAgvAdapter} {call : ControllerCall}
  {calls : List ControllerCall} {event : Event}

/-- The contract permits the next call. -/
theorem permits (owes : Owes c adapter (call :: calls)) (performs : call.performs event = true) :
    AdapterContract c event := by
  have due := owes.due call List.mem_cons_self
  have described : ∀ {state expected : PartialState}, decide (state = expected) = true →
      expected.isVehicleState → state.isVehicleState := by
    intro state expected same vehicle
    rw [of_decide_eq_true same]
    exact vehicle
  have back : ∀ {Context : Type} (callback : ControllerCall → Option Context) {context : Context},
      callback call = some context → context ∈ (call :: calls).filterMap callback :=
    fun callback context called => List.mem_filterMap.mpr ⟨call, List.mem_cons_self, called⟩
  unfold ControllerCall.performs at performs
  split at performs
  · exact described (Bool.and_eq_true_iff.mp performs).1 ⟨rfl, rfl, rfl, rfl, rfl⟩
  · exact described performs ⟨rfl, rfl, rfl, rfl, rfl⟩
  · exact described performs ⟨rfl, rfl, rfl, rfl, rfl⟩
  · exact described performs ⟨rfl, rfl, rfl, rfl, rfl⟩
  · trivial
  · exact described performs ⟨rfl, rfl, rfl, rfl, rfl⟩
  · exact isVehicleState_of_describes performs
  · next context actionStatus linkedState resultDescription errorDescription reported change =>
    simp only [Bool.and_eq_true, decide_eq_true_eq] at performs
    obtain ⟨⟨⟨⟨rfl, rfl⟩, -⟩, -⟩, describes⟩ := performs
    refine ⟨?_, due.1, isVehicleState_of_describes describes⟩
    cases ended : change.actionStatus.isEnded with
    | true =>
        refine owes.actions.mem_of_returned (back (·.ends) ?_)
        simp [ControllerCall.ends, ended]
    | false => exact owes.actions.mem_of_held (due.2 ended)
  · exact due.elim
  · next context reported =>
    obtain rfl := of_decide_eq_true performs
    exact owes.traversals.mem_of_returned (back (·.arrives) rfl)
  · next context reported =>
    obtain rfl := of_decide_eq_true performs
    exact owes.stops.mem_of_returned (back (·.halts) rfl)
  · cases performs

/-- A call that calls nothing back settles nothing. -/
theorem rest (owes : Owes c adapter (call :: calls)) (ends : call.ends = none)
    (arrives : call.arrives = none) (halts : call.halts = none) : Owes c adapter calls where
  numbered := owes.numbered
  statuses := owes.statuses
  actions := by
    have actions := owes.actions
    rwa [List.filterMap_cons_none ends] at actions
  traversals := by
    have traversals := owes.traversals
    rwa [List.filterMap_cons_none arrives] at traversals
  stops := by
    have stops := owes.stops
    rwa [List.filterMap_cons_none halts] at stops
  due other member := owes.due other (List.mem_cons_of_mem _ member)

/-- A callback settles what it is about. -/
theorem settle (owes : Owes c adapter (call :: calls)) (performs : call.performs event = true) :
    Owes (c.settle event) adapter calls := by
  unfold ControllerCall.performs at performs
  split at performs
  · exact owes.rest rfl rfl rfl
  · exact owes.rest rfl rfl rfl
  · exact owes.rest rfl rfl rfl
  · exact owes.rest rfl rfl rfl
  · exact owes.rest rfl rfl rfl
  · exact owes.rest rfl rfl rfl
  · exact owes.rest rfl rfl rfl
  · next context actionStatus linkedState resultDescription errorDescription reported change =>
    simp only [Bool.and_eq_true, decide_eq_true_eq] at performs
    obtain ⟨⟨⟨⟨rfl, rfl⟩, -⟩, -⟩, -⟩ := performs
    have traversals := owes.traversals
    have stops := owes.stops
    have actions := owes.actions
    refine ⟨owes.numbered, owes.statuses, ?_, traversals, stops,
      fun other member => owes.due other (List.mem_cons_of_mem _ member)⟩
    simp only [Config.settle]
    cases ended : change.actionStatus.isEnded with
    | true =>
        rw [List.filterMap_cons_some (b := context) (by simp [ControllerCall.ends, ended])]
          at actions
        exact actions.erase
    | false =>
        rwa [List.filterMap_cons_none (by simp [ControllerCall.ends, ended])] at actions
  · exact owes.rest rfl rfl rfl
  · next context reported =>
    obtain rfl := of_decide_eq_true performs
    exact { owes with
      traversals := Settles.erase owes.traversals
      due := fun other member => owes.due other (List.mem_cons_of_mem _ member) }
  · next context reported =>
    obtain rfl := of_decide_eq_true performs
    exact { owes with
      stops := Settles.erase owes.stops
      due := fun other member => owes.due other (List.mem_cons_of_mem _ member) }
  · cases performs

theorem updatedNode_of_performs (performs : call.performs event = true) :
    c.updatedNode event = none := by
  cases event with
  | order =>
      cases call with
      | updateActionStatus context actionStatus => cases actionStatus <;> cases performs
      | _ => cases performs
  | _ => rfl

/-- A node object is updated wherever it is held, between two calls of the controller. -/
theorem replaceStitched (owes : Owes c adapter []) (updated : Option Node) :
    Owes (c.replaceStitched updated) (adapter.replaceStitched updated) [] := by
  cases updated with
  | none => exact owes
  | some updated =>
      refine ⟨owes.numbered.replaceStitched _, ?_, ?_, ?_, owes.stops, by simp⟩
      · intro asm member
        obtain ⟨previous, known, rfl⟩ := List.mem_map.mp member
        exact (owes.statuses previous known).of_same rfl rfl rfl
      · have contexts : (adapter.replaceStitched (some updated)).actionContexts =
            adapter.actionContexts.map (ActionContext.replaceNode updated) := by
          simp [actionContexts, VirtualAgvAdapter.replaceStitched, Function.comp_def]
        rw [contexts]
        exact owes.actions.map (ActionContext.replaceNode updated)
      · have context : (adapter.replaceStitched (some updated)).traverseContext.toList =
            adapter.traverseContext.toList.map (TraverseEdgeContext.replaceNode updated) := by
          cases held : adapter.traverseContext <;>
            simp [VirtualAgvAdapter.replaceStitched, held]
        rw [context]
        exact owes.traversals.map (TraverseEdgeContext.replaceNode updated)

/-- The handlers that are invoked add to what is owed. -/
theorem invokeAll {next : Config} {observations : List Observation} (owes : Owes c adapter calls)
    (executing : next.executing = (observations.filterMap (·.executes)).reverse ++ c.executing)
    (traversing : next.traversing = (observations.filterMap (·.traverses)).reverse ++ c.traversing)
    (stopping : next.stopping = (observations.filterMap (·.stops)).reverse ++ c.stopping) :
    let after := adapter.invokeAll math options observations
    Owes next after (after.calls.drop adapter.calls.length ++ calls) := by
  have handled : ∃ calls, Handles observations adapter
      (adapter.invokeAll math options observations) calls :=
    invokeAll_handles owes.numbered owes.statuses observations
  obtain ⟨more, handles⟩ := handled
  have account : ∀ {Context : Type} {owed given held held' : List Context}
      {callback : ControllerCall → Option Context} {pending : List Context},
      pending = given.reverse ++ owed →
      Settles owed [] held (calls.filterMap callback) →
      Settles held given held' (more.filterMap callback) →
      Settles pending [] held' ((more ++ calls).filterMap callback) := by
    intro Context owed given held held' callback pending added owed' given'
    refine (owed'.trans given').perm ?_ ?_
    · rw [List.nil_append, List.append_nil, added]
      exact (List.perm_append_comm).trans ((List.reverse_perm given).symm.append_right owed)
    · rw [List.filterMap_append]
      exact List.Perm.append_left _ List.perm_append_comm
  dsimp only
  rw [handles.grown, List.drop_left]
  refine ⟨handles.numbered, handles.statuses, account executing owes.actions handles.actions,
    account traversing owes.traversals handles.traversals,
    account stopping owes.stops handles.stops, fun call member => ?_⟩
  rcases List.mem_append.mp member with new | old
  · exact handles.due call new
  · exact ControllerCall.isDue_mono (owes.due call old) handles.held

/-- In a part of a tick, nothing is handed over. -/
theorem tick {handled : AdapterEvent} {after : VirtualAgvAdapter} (owes : Owes c adapter [])
    (ticks : handled.isTick = true)
    (stepped : VirtualAgvAdapter.step math options adapter handled = some after) :
    Owes c after (after.calls.drop adapter.calls.length) := by
  obtain ⟨calls, accounts⟩ := step_accountsFor owes.numbered owes.statuses stepped
  have nothing : handled.executes = [] ∧ handled.traverses = [] ∧ handled.stops = [] := by
    cases handled with
    | onTick | proceed => exact ⟨rfl, rfl, rfl⟩
    | _ => cases ticks
  obtain ⟨executes, traverses, stops⟩ := nothing
  have actions := accounts.actions
  have traversals := accounts.traversals
  have stops' := accounts.stops
  rw [executes] at actions
  rw [traverses] at traversals
  rw [stops] at stops'
  rw [accounts.grown, List.drop_left]
  exact ⟨owes.numbered.of_step stepped, accounts.statuses, owes.actions.trans actions,
    owes.traversals.trans traversals, owes.stops.trans stops', accounts.due⟩

end Owes

theorem Config.settle_log (c : Config) (event : Event) : (c.settle event).log = c.log := by
  cases event with
  | order order adapter =>
      simp only [settle]
      cases c.stitchedNode order adapter <;> rfl
  | _ => rfl

namespace AttachedAgv

variable {vehicle next : AttachedAgv} {limit : Nat}

/-- What is owed after the controller has performed an event, and the handlers have run. -/
private theorem owes_invoked {event : Event} {calls : List ControllerCall}
    (owes : Owes (vehicle.controller.settle event)
      (vehicle.adapter.replaceStitched (vehicle.controller.updatedNode event)) calls) :
    let next := vehicle.invoked math options event calls (vehicle.controller.perform event)
    Owes next.controller next.adapter next.calls := by
  obtain ⟨observations, ⟨log, executing, traversing, stopping⟩, -⟩ :=
    vehicle.controller.perform_invokes event
  rw [Config.settle_log] at log
  have observed : (vehicle.controller.perform event).log.drop vehicle.controller.log.length =
      observations := by rw [log, List.drop_left]
  dsimp only [invoked]
  rw [observed]
  exact owes.invokeAll executing traversing stopping

private theorem contract_of_isOwn {c : Config} {event : Event} (own : event.isOwn = true) :
    AdapterContract c event := by
  cases event with
  | updateActionStatus | edgeTraversed | stopped | drivingToNextNode | updatePartialState
  | updateErrors => cases own
  | _ => trivial

private theorem distinct_of_not_isOwn {c : Config} {event : Event} (own : event.isOwn = false) :
    DistinctActionIds c event := by
  cases event with
  | order | instantActions => cases own
  | _ => trivial

private theorem not_isOwn_of_performs {call : ControllerCall} {event : Event}
    (performs : call.performs event = true) : event.isOwn = false := by
  unfold ControllerCall.performs at performs
  split at performs <;> first | rfl | cases performs

theorem isOwn_of_mayAct {event : Event} (may : vehicle.mayAct event = true) :
    event.isOwn = true := by
  cases event with
  | updateActionStatus | edgeTraversed | stopped | drivingToNextNode | updatePartialState
  | updateErrors => cases may
  | _ => rfl

private theorem answeredBy_of_not_isOwn {event : Event} (callback : event.isOwn = false)
    (answers : AdapterAnswers) : event.answeredBy answers = event := by
  cases event with
  | order | instantActions => cases callback
  | _ => rfl

private theorem answeredBy_answeredBy (event : Event) (answers : AdapterAnswers) :
    (event.answeredBy answers).answeredBy answers = event.answeredBy answers := by
  cases event <;> rfl

theorem isOwn_answeredBy (event : Event) (answers : AdapterAnswers) :
    (event.answeredBy answers).isOwn = event.isOwn := by
  cases event <;> rfl

/-- The controller runs in the environment it is made for. -/
structure Kept (math : MathLibrary) (tolerances : DeviationTolerances) (limit : Nat)
    (vehicle : AttachedAgv) : Prop where
  run : ∃ events, ControllerRun (fun _ event => event.IsAnswered math tolerances) limit events
    vehicle.controller
  owes : Owes vehicle.controller vehicle.adapter vehicle.calls

theorem Kept.act (kept : Kept math tolerances limit vehicle) {event : Event}
    {calls : List ControllerCall}
    (environment : Environment vehicle.controller event)
    (answered : event.IsAnswered math tolerances)
    (owes : Owes (vehicle.controller.settle event)
      (vehicle.adapter.replaceStitched (vehicle.controller.updatedNode event)) calls)
    (acted : vehicle.act math options event calls = some next) : Kept math tolerances limit next := by
  obtain ⟨controller, stepped, rfl⟩ := Option.map_eq_some_iff.mp acted
  obtain ⟨events, run⟩ := kept.run
  obtain ⟨-, rfl⟩ := Config.step_eq_some.mp stepped
  exact ⟨⟨events ++ [event], run.advance ⟨environment, answered⟩ stepped⟩, owes_invoked owes⟩

/-- Own events settle nothing, but an order may update a node object. -/
theorem Kept.settle_own (kept : Kept math tolerances limit vehicle) {event : Event}
    (may : vehicle.mayAct event = true) (answers : AdapterAnswers) :
    Owes (vehicle.controller.settle (event.answeredBy answers))
      (vehicle.adapter.replaceStitched
        (vehicle.controller.updatedNode (event.answeredBy answers))) vehicle.calls := by
  cases event with
  | order order adapter =>
      have idle : vehicle.calls = [] := by
        have waits := (Bool.and_eq_true_iff.mp (Bool.and_eq_true_iff.mp may).1).2
        exact List.isEmpty_iff.mp waits
      have owes := kept.owes
      rw [idle] at owes ⊢
      exact owes.replaceStitched _
  | updateActionStatus | edgeTraversed | stopped | drivingToNextNode | updatePartialState
  | updateErrors => cases isOwn_of_mayAct may
  | _ => exact kept.owes

theorem Kept.step (kept : Kept math tolerances limit vehicle) {event : AttachedAgvEvent}
    (distinct : DistinctActions math tolerances vehicle event)
    (stepped : step math options tolerances vehicle event = some next) :
    Kept math tolerances limit next := by
  unfold AttachedAgv.step at stepped
  split at stepped
  · cases stepped
  cases event with
  | controller event =>
      dsimp only at stepped
      split at stepped
      · next may =>
        split at stepped
        · obtain rfl := Option.some.inj stepped
          exact ⟨kept.run, kept.owes⟩
        have answered : (event.answeredBy (vehicle.adapter.answers math tolerances)).IsAnswered
            math tolerances := ⟨vehicle.adapter, answeredBy_answeredBy event _⟩
        refine kept.act ⟨contract_of_isOwn ?_, distinct⟩ answered (kept.settle_own may _) stepped
        rw [isOwn_answeredBy]
        exact isOwn_of_mayAct may
      · cases stepped
  | callback event =>
      dsimp only at stepped
      cases pending : vehicle.calls with
      | nil => simp [pending] at stepped
      | cons call calls =>
          simp only [pending] at stepped
          split at stepped
          · next performs =>
            have owes := kept.owes
            rw [pending] at owes
            have callback := not_isOwn_of_performs performs
            have answered : event.IsAnswered math tolerances :=
              ⟨vehicle.adapter, answeredBy_of_not_isOwn callback _⟩
            refine kept.act ⟨owes.permits performs, distinct_of_not_isOwn callback⟩ answered ?_
              stepped
            rw [Owes.updatedNode_of_performs performs]
            exact owes.settle performs
          · cases stepped
  | tick event =>
      dsimp only at stepped
      split at stepped
      · next ticks =>
        obtain ⟨adapter, ticked, rfl⟩ := Option.map_eq_some_iff.mp stepped
        simp only [Bool.and_eq_true, List.isEmpty_iff] at ticks
        obtain ⟨⟨isTick, made⟩, -⟩ := ticks
        have owes := kept.owes
        rw [made] at owes
        exact ⟨kept.run, owes.tick isTick ticked⟩
      · cases stepped

theorem Kept.attached (options : VirtualAgvAdapterOptions) (limit : Nat) :
    Kept math tolerances limit (attached options limit) where
  run := by
    let state := (VirtualAgvAdapter.attached options).vehicleState
    refine ⟨[.updatePartialState
      { lastNodeId := some state.position.lastNodeId
        batteryState := some state.batteryState
        driving := some state.isDriving
        operatingMode := some .automatic
        paused := some state.isPaused
        safetyState := some { eStop := .none, fieldViolation := false } } false],
      Run.advance .start ⟨⟨?_, trivial⟩, ⟨VirtualAgvAdapter.attached options, rfl⟩⟩ rfl⟩
    exact ⟨rfl, rfl, rfl, rfl, rfl⟩
  owes :=
    { numbered := ⟨List.nodup_nil, fun _ member => absurd member List.not_mem_nil⟩
      statuses := fun _ member => absurd member List.not_mem_nil
      actions := .keep _ _
      traversals := .keep _ _
      stops := .keep _ _
      due := fun _ member => absurd member List.not_mem_nil }

theorem kept_of_run {events : List AttachedAgvEvent}
    (run : AttachedAgvRun math options tolerances limit events vehicle) :
    Kept math tolerances limit vehicle :=
  run.invariant (Kept math tolerances limit) (.attached options limit)
    fun _ kept distinct stepped => kept.step distinct stepped

/-- The virtual AGV keeps the contract of an adapter: whatever happens, the controller has run
in the environment it is made for, and the next call of the adapter belongs there. -/
theorem keepsContract {events : List AttachedAgvEvent}
    (run : AttachedAgvRun math options tolerances limit events vehicle) :
    (∃ controllerEvents,
      ControllerRun (fun _ event => event.IsAnswered math tolerances) limit controllerEvents
        vehicle.controller) ∧
    ∀ call ∈ vehicle.calls.head?, ∀ event, call.performs event = true →
      AdapterContract vehicle.controller event := by
  have kept := kept_of_run run
  refine ⟨kept.run, fun call next event performs => ?_⟩
  cases pending : vehicle.calls with
  | nil => simp [pending] at next
  | cons first calls =>
      obtain rfl : first = call := by simpa [pending] using next
      have owes := kept.owes
      rw [pending] at owes
      exact owes.permits performs

/-! ## Executions -/

/-- The next event while the controller or a part of the adapter is running. -/
def ongoing (vehicle : AttachedAgv) : Option AttachedAgvEvent :=
  if vehicle.aborted.isSome then none
  else
    match vehicle.calls with
    | call :: _ =>
        if vehicle.controller.adapterMayCall then some (.callback call.event)
        else some (.controller .proceed)
    | [] => if vehicle.controller.stack.isEmpty then none else some (.controller .proceed)

instance (vehicle : AttachedAgv) (event : AttachedAgvEvent) :
    Decidable (DistinctActions math tolerances vehicle event) :=
  match event with
  | .controller event => inferInstanceAs (Decidable (DistinctActionIds vehicle.controller
      (event.answeredBy (vehicle.adapter.answers math tolerances))))
  | .callback _ | .tick _ => isTrue trivial

/-- Execute events in order, each with all that it leads to. -/
def follow (math : MathLibrary) (options : VirtualAgvAdapterOptions)
    (tolerances : DeviationTolerances) :
    Nat → AttachedAgv → List AttachedAgvEvent → Option AttachedAgv
  | 0, _, _ => none
  | fuel + 1, vehicle, events =>
      match vehicle.ongoing, events with
      | some event, events =>
          (step math options tolerances vehicle event).bind fun next =>
            follow math options tolerances fuel next events
      | none, [] => some vehicle
      | none, event :: events =>
          if DistinctActions math tolerances vehicle event then
            (step math options tolerances vehicle event).bind fun next =>
              follow math options tolerances fuel next events
          else none

private theorem distinct_of_ongoing {event : AttachedAgvEvent}
    (goesOn : vehicle.ongoing = some event) :
    DistinctActions math tolerances vehicle event ∧ event.IsForward := by
  unfold ongoing at goesOn
  split at goesOn
  · cases goesOn
  split at goesOn
  · split at goesOn <;>
    · obtain rfl := Option.some.inj goesOn
      exact ⟨trivial, trivial⟩
  · split at goesOn
    · cases goesOn
    · obtain rfl := Option.some.inj goesOn
      exact ⟨trivial, trivial⟩

/-- The events followed are part of a run, in which no other one is a tick. -/
theorem run_of_follow {fuel : Nat} {past events : List AttachedAgvEvent} {finish : AttachedAgv}
    (run : AttachedAgvRun math options tolerances limit past vehicle)
    (followed : follow math options tolerances fuel vehicle events = some finish) :
    ∃ all, AttachedAgvRun math options tolerances limit all finish ∧
      ((∀ event ∈ past ++ events, event.IsForward) → ∀ event ∈ all, event.IsForward) := by
  induction fuel generalizing vehicle past events with
  | zero => cases followed
  | succ fuel ih =>
      unfold follow at followed
      cases goesOn : vehicle.ongoing with
      | some event =>
          simp only [goesOn, Option.bind_eq_some_iff] at followed
          obtain ⟨next, stepped, followed⟩ := followed
          obtain ⟨distinct, isForward⟩ := distinct_of_ongoing goesOn
          obtain ⟨all, run, forward⟩ := ih (run.advance distinct stepped) followed
          refine ⟨all, run, fun given => forward fun other member => ?_⟩
          simp only [List.mem_append, List.mem_singleton] at member given
          rcases member with (earlier | rfl) | later
          · exact given other (.inl earlier)
          · exact isForward
          · exact given other (.inr later)
      | none =>
          cases events with
          | nil =>
              simp only [goesOn, Option.some.injEq] at followed
              exact ⟨past, followed ▸ run, fun given => by simpa using given⟩
          | cons event events =>
              simp only [goesOn] at followed
              split at followed
              · next distinct =>
                obtain ⟨next, stepped, followed⟩ := Option.bind_eq_some_iff.mp followed
                obtain ⟨all, run, forward⟩ := ih (run.advance distinct stepped) followed
                exact ⟨all, run, fun given => forward (by simpa using given)⟩
              · cases followed

/-- A decidable check on the vehicle after some events yields a run that passes it. -/
theorem exists_run_of_follow {fuel : Nat} {events : List AttachedAgvEvent}
    {check : AttachedAgv → Bool}
    (passed : (follow math options tolerances fuel (attached options limit) events).any check =
      true) :
    ∃ all vehicle, AttachedAgvRun math options tolerances limit all vehicle ∧
      check vehicle = true ∧
      ((∀ event ∈ events, event.IsForward) → ∀ event ∈ all, event.IsForward) := by
  cases followed : follow math options tolerances fuel (attached options limit) events with
  | none => simp [followed] at passed
  | some vehicle =>
      obtain ⟨all, run, forward⟩ := run_of_follow .start followed
      exact ⟨all, vehicle, run, by simpa [followed] using passed, forward⟩

/-- An order that takes the vehicle to a node where it executes an action. -/
def drivenOrder : Order where
  orderId := "order"
  orderUpdateId := 0
  nodes :=
    [{ nodeId := "start", sequenceId := 0, released := true, actions := [] },
      { nodeId := "end"
        sequenceId := 2
        released := true
        actions := [noop .hard]
        nodePosition := some { x := 10, y := 0, mapId := "local" } }]
  edges :=
    [{ edgeId := "edge"
       sequenceId := 1
       released := true
       startNodeId := "start"
       endNodeId := "end"
       actions := [] }]

/-- The parts of a tick while the given number of actions is active. -/
def ticked (realInterval : Rat) (machines : Nat) : List AttachedAgvEvent :=
  .tick (.onTick realInterval) :: List.replicate (machines + 3) (.tick (.proceed {}))

theorem keepsContract_drivenOrder :
    ∃ (events : List AttachedAgvEvent) (vehicle : AttachedAgv),
      AttachedAgvRun axisMath { speedOption := .vehicleSpeed 100 } {} 5 events vehicle ∧
      vehicle.controller.agv.currentState.actionStates.map (·.actionStatus) = [.finished] ∧
      ∃ controllerEvents,
        ControllerRun (fun _ event => event.IsAnswered axisMath {}) 5 controllerEvents
          vehicle.controller := by
  have follows : (follow axisMath { speedOption := .vehicleSpeed 100 } {} 80
      (attached { speedOption := .vehicleSpeed 100 } 5)
      (.controller (.order drivenOrder {}) :: (ticked 1 0 ++ ticked 1 0 ++ ticked 10 1 ++
        ticked 10 1))).any (fun vehicle =>
          vehicle.controller.agv.currentState.actionStates.map (·.actionStatus) = [.finished]) =
      true := by
    decide +kernel
  obtain ⟨events, vehicle, run, passed, -⟩ := exists_run_of_follow follows
  exact ⟨events, vehicle, run, by simpa using passed, (keepsContract run).1⟩

end AttachedAgv

end Vda5050
