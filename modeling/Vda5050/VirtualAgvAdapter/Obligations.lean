import Vda5050.Library.Ledger
import Vda5050.VirtualAgvAdapter.TickLoop

/-!
# What the virtual AGV owes the controller

An executed action ends once, an edge is traversed once, and a stopped traversal is
reported once. Each step of the adapter keeps the accounts: what it calls back and what
it still holds has been handed over to it.
-/

set_option autoImplicit false

namespace Vda5050

open Library

namespace VirtualAgvAdapter

/-! ## Callbacks -/

/-- The context of an action that is reported to have ended. -/
def ControllerCall.ends : ControllerCall → Option ActionContext
  | .updateActionStatus context (some actionStatus) _ _ _ =>
      if actionStatus.isEnded then some context else none
  | _ => none

def ControllerCall.arrives : ControllerCall → Option TraverseEdgeContext
  | .edgeTraversed context => some context
  | _ => none

def ControllerCall.halts : ControllerCall → Option StopTraverseContext
  | .stopped context => some context
  | _ => none

/-- A call that describes the vehicle, and is not a callback of a context. -/
def ControllerCall.isPlain : ControllerCall → Bool
  | .updateActionStatus .. | .edgeTraversed _ | .stopped _ => false
  | _ => true

/-- Statuses are reported of actions that are held or end, and are never `WAITING`. -/
def ControllerCall.IsDue (held : List ActionContext) : ControllerCall → Prop
  | .updateActionStatus context (some actionStatus) _ _ _ =>
      actionStatus ≠ .waiting ∧ (actionStatus.isEnded = false → context ∈ held)
  | .updateActionStatus _ none _ _ _ => False
  | _ => True

private theorem ControllerCall.isDue_of_isPlain {call : ControllerCall}
    (plain : call.isPlain = true) (held : List ActionContext) : call.IsDue held := by
  cases call with
  | updateActionStatus => cases plain
  | _ => trivial

private theorem filterMap_of_isPlain {Context : Type} {calls : List ControllerCall}
    (plain : ∀ call ∈ calls, call.isPlain = true) (callback : ControllerCall → Option Context)
    (none : ∀ call : ControllerCall, call.isPlain = true → callback call = none) :
    calls.filterMap callback = [] :=
  List.filterMap_eq_nil_iff.mpr fun call member => none call (plain call member)

private theorem ControllerCall.ends_of_isPlain (call : ControllerCall)
    (plain : call.isPlain = true) :
    call.ends = none := by
  cases call with
  | updateActionStatus => cases plain
  | _ => rfl

private theorem ControllerCall.arrives_of_isPlain (call : ControllerCall)
    (plain : call.isPlain = true) :
    call.arrives = none := by
  cases call with
  | edgeTraversed => cases plain
  | _ => rfl

private theorem ControllerCall.halts_of_isPlain (call : ControllerCall)
    (plain : call.isPlain = true) :
    call.halts = none := by
  cases call with
  | stopped => cases plain
  | _ => rfl

/-- Only the last one of the calls is a callback, so that nothing is left when the controller
reacts to it. -/
def CallsBackLast (calls : List ControllerCall) : Prop :=
  ∀ call ∈ calls.dropLast, call.isPlain = true

namespace CallsBackLast

variable {earlier calls : List ControllerCall}

theorem of_plain (plain : ∀ call ∈ calls, call.isPlain = true) : CallsBackLast calls :=
  fun call member => plain call (List.dropLast_subset _ member)

private theorem concat (plain : ∀ call ∈ earlier, call.isPlain = true) (call : ControllerCall) :
    CallsBackLast (earlier ++ [call]) := by
  unfold CallsBackLast
  rwa [List.dropLast_concat]

theorem append (last : CallsBackLast calls) (plain : ∀ call ∈ earlier, call.isPlain = true) :
    CallsBackLast (earlier ++ calls) := by
  intro call member
  rw [List.dropLast_append] at member
  split at member
  · exact plain call (List.dropLast_subset _ member)
  · exact (List.mem_append.mp member).elim (plain call) (last call)

end CallsBackLast

/-! ## Statuses that are reported -/

/-- Statuses that neither are resumed from a pause nor belong to actions not yet executed. -/
def IsProper (actionStatus : ActionStatus) : Prop :=
  actionStatus ≠ .paused ∧ actionStatus ≠ .waiting

private theorem isProper_of_mem_actionDefinitions :
    ∀ definition ∈ actionDefinitions,
      (definition.transitions.onInit ≠ .paused ∧ definition.transitions.onInit ≠ .waiting) ∧
      definition.transitions.onTerminate = none ∧
      (∀ timed ∈ definition.transitions.initializing,
        timed.next ≠ .paused ∧ timed.next ≠ .waiting) ∧
      ∀ timed ∈ definition.transitions.running,
        timed.next ≠ .paused ∧ timed.next ≠ .waiting := by
  decide

/-- The machine has a status to report next. -/
structure HasStatus (asm : ActionStateMachine) : Prop where
  defined : asm.actionDefinition ∈ actionDefinitions
  current : asm.actionStatus ≠ some .waiting
  resumes : asm.actionStatus = some .paused →
    ∃ actionStatus, asm.actionStatusOnPause = some actionStatus ∧ IsProper actionStatus

/-- A tick that changes the status has one to report. -/
def TickOutcome.HasStatus : TickOutcome → Prop
  | .stays next => VirtualAgvAdapter.HasStatus next
  | .transitions next actionStatus =>
      VirtualAgvAdapter.HasStatus { next with actionStatus } ∧
        ∃ reported, actionStatus = some reported ∧ reported ≠ .waiting
  | .typeError => True

namespace HasStatus

variable {asm next : ActionStateMachine}

theorem of_same (status : HasStatus asm) (definition : next.actionDefinition = asm.actionDefinition)
    (actionStatus : next.actionStatus = asm.actionStatus)
    (onPause : next.actionStatusOnPause = asm.actionStatusOnPause) : HasStatus next where
  defined := definition ▸ status.defined
  current := actionStatus ▸ status.current
  resumes := by
    rw [actionStatus, onPause]
    exact status.resumes

/-- A proper status is entered. -/
theorem enters (status : HasStatus asm) (definition : next.actionDefinition = asm.actionDefinition)
    {actionStatus : ActionStatus} (proper : IsProper actionStatus) :
    TickOutcome.HasStatus (.transitions next (some actionStatus)) := by
  refine ⟨⟨definition ▸ status.defined, ?_, ?_⟩, actionStatus, rfl, proper.2⟩
  · simpa using proper.2
  · intro paused
    exact absurd (Option.some.inj paused) proper.1

theorem timed_next (status : HasStatus asm) {actionStatus : ActionStatus}
    {timed : TimedTransition} (entered : asm.timedTransition actionStatus = some (some timed)) :
    IsProper timed.next := by
  obtain ⟨-, -, initializing, running⟩ := isProper_of_mem_actionDefinitions _ status.defined
  cases actionStatus with
  | initializing =>
      simp only [ActionStateMachine.timedTransition, Option.map_eq_some_iff,
        Option.some.injEq] at entered
      obtain ⟨_, known, rfl⟩ := entered
      exact initializing _ known
  | running =>
      simp only [ActionStateMachine.timedTransition, Option.map_eq_some_iff,
        Option.some.injEq] at entered
      obtain ⟨_, known, rfl⟩ := entered
      exact running _ known
  | failed | finished | paused | waiting =>
      simp [ActionStateMachine.timedTransition] at entered

theorem passTime (status : HasStatus asm) (math : MathLibrary) (actionStatus : ActionStatus)
    (realInterval : Rat) : (asm.passTime math actionStatus realInterval).HasStatus := by
  unfold ActionStateMachine.passTime
  cases entered : asm.timedTransition actionStatus with
  | none => trivial
  | some transition =>
      cases transition with
      | none => exact status.of_same rfl rfl rfl
      | some timed =>
          dsimp only
          split
          · refine status.enters ?_ (status.timed_next entered)
            rfl
          · exact status.of_same rfl rfl rfl

theorem tick (status : HasStatus asm) (math : MathLibrary) (realInterval : Rat) :
    (asm.tick math realInterval).HasStatus := by
  obtain ⟨onInit, unterminated, -, -⟩ := isProper_of_mem_actionDefinitions _ status.defined
  unfold ActionStateMachine.tick
  dsimp only
  split
  · exact status
  split
  · next pausing =>
    rw [Bool.and_eq_true, decide_eq_true_eq] at pausing
    refine ⟨⟨status.defined, by simp, fun _ => ⟨_, rfl, ?_⟩⟩, _, rfl, by simp⟩
    cases current : asm.actionStatus with
    | none => exact onInit
    | some actionStatus =>
        exact ⟨fun same => pausing.2 (current.trans (congrArg some same)),
          fun same => status.current (current.trans (congrArg some same))⟩
  split
  · next resuming =>
    rw [Bool.and_eq_true, decide_eq_true_eq] at resuming
    obtain ⟨actionStatus, known, proper⟩ := status.resumes resuming.2
    rw [known]
    refine status.enters ?_ proper
    rfl
  · cases asm.actionStatus with
    | none => exact status.enters rfl onInit
    | some actionStatus =>
        dsimp only
        split
        · exact status.enters rfl ⟨by simp, by simp⟩
        split
        · rw [unterminated]
          trivial
        split
        · exact status
        · exact status.passTime math actionStatus realInterval

theorem terminate (status : HasStatus asm) : HasStatus asm.terminate := by
  unfold ActionStateMachine.terminate
  split
  · exact status
  · exact status.of_same rfl rfl rfl

theorem cancel (status : HasStatus asm) : HasStatus asm.cancel := by
  unfold ActionStateMachine.cancel
  split
  · exact status
  · exact status.of_same rfl rfl rfl

end HasStatus

/-- Every machine has a status to report next. -/
def HaveStatuses (adapter : VirtualAgvAdapter) : Prop :=
  ∀ asm ∈ adapter.actionStateMachines, HasStatus asm

/-! ## Plain operations -/

/-- The contexts of the actions that are held. -/
def actionContexts (adapter : VirtualAgvAdapter) : List ActionContext :=
  adapter.actionStateMachines.map (·.actionContext)

private theorem actionContexts_eq (adapter : VirtualAgvAdapter) :
    adapter.actionContexts = adapter.activeActions.map (·.context) := by
  simp [actionContexts, activeActions, ActionStateMachine.activeAction]

/-- Nothing is called back, and the contexts stay. -/
structure Speaks (before after : VirtualAgvAdapter) : Prop where
  statuses : HaveStatuses before → HaveStatuses after
  actionContexts : after.actionContexts = before.actionContexts
  traverseContext : after.traverseContext = before.traverseContext
  calls : ∃ calls, after.calls = before.calls ++ calls ∧ ∀ call ∈ calls, call.isPlain = true

namespace Speaks

variable {before middle after adapter : VirtualAgvAdapter}

theorem trans (first : Speaks before middle) (second : Speaks middle after) :
    Speaks before after := by
  obtain ⟨calls, grown, plain⟩ := first.calls
  obtain ⟨later, grown', plain'⟩ := second.calls
  refine ⟨second.statuses ∘ first.statuses, second.actionContexts.trans first.actionContexts,
    second.traverseContext.trans first.traverseContext, calls ++ later, ?_, ?_⟩
  · rw [grown', grown, List.append_assoc]
  · intro call member
    exact (List.mem_append.mp member).elim (plain call) (plain' call)

/-- Neither a context nor the calls change. -/
theorem of_same (machines : after.actionStateMachines = before.actionStateMachines)
    (traverseContext : after.traverseContext = before.traverseContext)
    (calls : after.calls = before.calls) : Speaks before after where
  statuses := by
    rw [HaveStatuses, HaveStatuses, machines]
    exact id
  actionContexts := by simp only [VirtualAgvAdapter.actionContexts, machines]
  traverseContext := traverseContext
  calls := ⟨[], by simp [calls], by simp⟩

theorem refl (adapter : VirtualAgvAdapter) : Speaks adapter adapter := .of_same rfl rfl rfl

theorem call (speaks : Speaks before after) {call : ControllerCall} (plain : call.isPlain = true) :
    Speaks before (after.call call) :=
  speaks.trans ⟨id, rfl, rfl, [call], rfl, by simpa using plain⟩

theorem updateVehicle (speaks : Speaks before after) (update : VirtualAgvState → VirtualAgvState) :
    Speaks before (after.updateVehicle update) :=
  speaks.trans (.of_same rfl rfl rfl)

theorem startDriving (speaks : Speaks before after) (vx vy : Rat) :
    Speaks before (after.startDriving vx vy) :=
  ((speaks.updateVehicle _).call rfl).call rfl

theorem stopDriving (speaks : Speaks before after) : Speaks before after.stopDriving :=
  ((speaks.updateVehicle _).call rfl).call rfl

theorem standStill (speaks : Speaks before after) : Speaks before after.standStill := by
  unfold VirtualAgvAdapter.standStill
  split
  · exact speaks.stopDriving
  · exact speaks

theorem reportBatteryState (speaks : Speaks before after) :
    Speaks before after.reportBatteryState :=
  speaks.call rfl

private theorem giveUp (speaks : Speaks before after) :
    Speaks { before with traverseContext := none } { after with traverseContext := none } :=
  ⟨speaks.statuses, speaks.actionContexts, rfl, speaks.calls⟩

theorem setBatteryCharge (speaks : Speaks before after) (options : VirtualAgvAdapterOptions)
    (charge : Rat) : Speaks before (after.setBatteryCharge options charge) :=
  speaks.updateVehicle _

theorem move (speaks : Speaks before after) (math : MathLibrary)
    (options : VirtualAgvAdapterOptions) (x y theta dx dy : Rat) : Speaks before
      ((after.moveTo x y theta).updateBatteryState math options dx dy).reportPosition :=
  (((speaks.updateVehicle _).setBatteryCharge options _).reportBatteryState).call rfl

/-- The machines may change, but not what they are about. -/
theorem updateMachines (speaks : Speaks before after)
    (update : ActionStateMachine → ActionStateMachine)
    (same : ∀ asm, (update asm).actionContext = asm.actionContext)
    (statuses : ∀ asm, HasStatus asm → HasStatus (update asm)) :
    Speaks before (after.updateMachines fun machines => machines.map update) := by
  refine speaks.trans ⟨fun earlier asm member => ?_, ?_, rfl, [], by simp
    [VirtualAgvAdapter.updateMachines], by simp⟩
  · obtain ⟨previous, known, rfl⟩ := List.mem_map.mp member
    exact statuses previous (earlier previous known)
  · simp [VirtualAgvAdapter.actionContexts, VirtualAgvAdapter.updateMachines,
      Function.comp_def, same]

theorem startPause (speaks : Speaks before after) (ref : Nat) :
    Speaks before (after.startPause ref).1 := by
  unfold VirtualAgvAdapter.startPause
  split
  · exact speaks
  · refine (speaks.standStill.updateVehicle _).updateMachines _ (fun asm => by split <;> rfl) ?_
    intro asm status
    split
    · exact status.of_same rfl rfl rfl
    · exact status

theorem stopPause (speaks : Speaks before after) (ref : Nat) :
    Speaks before (after.stopPause ref).1 := by
  unfold VirtualAgvAdapter.stopPause
  split
  · exact speaks
  · refine (speaks.updateVehicle _).updateMachines _ (fun asm => by split <;> rfl) ?_
    intro asm status
    split
    · exact status.of_same rfl rfl rfl
    · exact status

theorem startCharging (speaks : Speaks before after) : Speaks before after.startCharging.1 := by
  unfold VirtualAgvAdapter.startCharging
  split
  · exact speaks
  · exact speaks.standStill.trans (.of_same rfl rfl rfl)

theorem stopCharging (speaks : Speaks before after) : Speaks before after.stopCharging.1 := by
  unfold VirtualAgvAdapter.stopCharging
  split
  · exact speaks
  · exact speaks.trans (.of_same rfl rfl rfl)

theorem stopPauseState (speaks : Speaks before after) : Speaks before after.stopPauseState := by
  unfold VirtualAgvAdapter.stopPauseState
  split
  · exact speaks
  · exact (speaks.updateVehicle _).call rfl

theorem initPosition {action : Action} {linkedState : LinkedState}
    (initialized : adapter.initPosition action = some (after, linkedState)) :
    Speaks adapter after := by
  simp only [VirtualAgvAdapter.initPosition, Option.bind_eq_bind, Option.bind_eq_some_iff,
    Option.some.injEq, Prod.mk.injEq] at initialized
  obtain ⟨_, _, _, _, _, _, _, _, _, _, rfl, _⟩ := initialized
  exact (Speaks.refl adapter).updateVehicle _

theorem finishedEffect {inputs : TickInputs} {asm : ActionStateMachine} {linkedState : LinkedState}
    (affected : adapter.finishedEffect inputs asm = some (after, linkedState)) :
    Speaks adapter after := by
  unfold VirtualAgvAdapter.finishedEffect at affected
  cases effect : asm.actionDefinition.transitions.finishedEffect <;>
    simp only [effect, Option.some.injEq] at affected
  case initPosition => exact initPosition affected
  all_goals
    have result := congrArg Prod.fst affected
    dsimp only at result
    rw [← result]
  case none => exact .refl adapter
  case loadAdded => exact .of_same rfl rfl rfl
  case loadRemoved => exact .of_same rfl rfl rfl
  case startPause => exact (Speaks.refl adapter).startPause _
  case stopPause => exact (Speaks.refl adapter).stopPause _
  case startCharging => exact (Speaks.refl adapter).startCharging
  case stopCharging => exact (Speaks.refl adapter).stopCharging

theorem driveOn (math : MathLibrary) (options : VirtualAgvAdapterOptions)
    (context : TraverseEdgeContext) (dx dy alpha : Rat) :
    Speaks adapter (adapter.driveOn math options context dx dy alpha) := by
  have moved := (Speaks.refl adapter).move math options (adapter.vehicleState.position.x + dx)
    (adapter.vehicleState.position.y + dy) (context.edge.orientation.getD alpha) dx dy
  unfold VirtualAgvAdapter.driveOn
  dsimp only
  split
  · refine Speaks.call (moved.stopDriving.trans ?_) rfl
    exact .of_same rfl rfl rfl
  · exact moved

theorem advanceBatteryCharge (options : VirtualAgvAdapterOptions) (realInterval : Rat) :
    Speaks adapter (adapter.advanceBatteryCharge options realInterval) := by
  unfold VirtualAgvAdapter.advanceBatteryCharge
  split
  · exact .refl adapter
  · have cleared : ∀ {between}, Speaks adapter between →
        Speaks adapter (between.clearBatteryLowError options).1 := by
      intro between speaks
      unfold clearBatteryLowError
      split
      · exact speaks.trans (.of_same rfl rfl rfl)
      · exact speaks
    have reported : ∀ {between} error, Speaks adapter between →
        Speaks adapter (between.reportCharge options error) := by
      intro between error speaks
      unfold reportCharge
      split
      · cases error with
        | none => exact speaks.reportBatteryState
        | some error => exact (speaks.call rfl).reportBatteryState
      · exact speaks
    have updated := fun error => reported error (cleared
      (((Speaks.refl adapter).setBatteryCharge options
        (adapter.chargedBy options realInterval)).reportBatteryState))
    dsimp only
    split
    · exact (updated _).stopCharging.call rfl
    · exact updated _

end Speaks

/-! ## AccountsFor of a step -/

def AdapterEvent.executes : AdapterEvent → List ActionContext
  | .executeAction context => [context]
  | _ => []

def AdapterEvent.traverses : AdapterEvent → List TraverseEdgeContext
  | .traverseEdge context => [context]
  | _ => []

def AdapterEvent.stops : AdapterEvent → List StopTraverseContext
  | .stopTraverse context => [context]
  | _ => []

/-- The contexts handed over in a step are held or called back like those held before. -/
structure AccountsFor (event : AdapterEvent) (before after : VirtualAgvAdapter)
    (calls : List ControllerCall) : Prop where
  grown : after.calls = before.calls ++ calls
  actions : Settles before.actionContexts event.executes after.actionContexts
    (calls.filterMap (·.ends))
  traversals : Settles before.traverseContext.toList event.traverses after.traverseContext.toList
    (calls.filterMap (·.arrives))
  stops : Settles [] event.stops [] (calls.filterMap (·.halts))
  due : ∀ call ∈ calls, call.IsDue after.actionContexts
  statuses : HaveStatuses after
  last : CallsBackLast calls

namespace AccountsFor

variable {event : AdapterEvent} {before middle after : VirtualAgvAdapter}
  {calls : List ControllerCall}

/-- Plain operations need no account. -/
private theorem of_speaks (statuses : HaveStatuses before) (speaks : Speaks before after)
    (event : AdapterEvent) : ∃ calls, AccountsFor event before after calls := by
  obtain ⟨calls, grown, plain⟩ := speaks.calls
  refine ⟨calls, grown, ?_, ?_, ?_, fun call member => call.isDue_of_isPlain (plain call member) _,
    speaks.statuses statuses, .of_plain plain⟩
  · rw [filterMap_of_isPlain plain _ ControllerCall.ends_of_isPlain, speaks.actionContexts]
    exact .keep _ _
  · rw [filterMap_of_isPlain plain _ ControllerCall.arrives_of_isPlain, speaks.traverseContext]
    exact .keep _ _
  · rw [filterMap_of_isPlain plain _ ControllerCall.halts_of_isPlain]
    exact .keep _ _

/-- The vehicle is described before anything is called back. -/
private theorem after_speaks (speaks : Speaks before middle)
    (accounts : AccountsFor event middle after calls) :
    ∃ calls, AccountsFor event before after calls := by
  obtain ⟨earlier, grown, plain⟩ := speaks.calls
  refine ⟨earlier ++ calls, ?_, ?_, ?_, ?_, ?_, accounts.statuses, accounts.last.append plain⟩
  · rw [accounts.grown, grown, List.append_assoc]
  · rw [List.filterMap_append, filterMap_of_isPlain plain _ ControllerCall.ends_of_isPlain,
      List.nil_append, ← speaks.actionContexts]
    exact accounts.actions
  · rw [List.filterMap_append, filterMap_of_isPlain plain _ ControllerCall.arrives_of_isPlain,
      List.nil_append, ← speaks.traverseContext]
    exact accounts.traversals
  · rw [List.filterMap_append, filterMap_of_isPlain plain _ ControllerCall.halts_of_isPlain,
      List.nil_append]
    exact accounts.stops
  · intro call member
    rcases List.mem_append.mp member with early | late
    · exact call.isDue_of_isPlain (plain call early) _
    · exact accounts.due call late

theorem of_same (accounts : AccountsFor event before middle calls)
    (machines : after.actionStateMachines = middle.actionStateMachines)
    (traverseContext : after.traverseContext = middle.traverseContext)
    (sameCalls : after.calls = middle.calls) : AccountsFor event before after calls where
  grown := sameCalls.trans accounts.grown
  actions := by
    have contexts : after.actionContexts = middle.actionContexts := by
      rw [VirtualAgvAdapter.actionContexts, VirtualAgvAdapter.actionContexts, machines]
    rw [contexts]
    exact accounts.actions
  traversals := by
    rw [traverseContext]
    exact accounts.traversals
  stops := accounts.stops
  due := by
    rw [VirtualAgvAdapter.actionContexts, machines]
    exact accounts.due
  statuses := by
    rw [HaveStatuses, machines]
    exact accounts.statuses
  last := accounts.last

end AccountsFor

/-! ## Transitions of machines -/

variable {math : MathLibrary} {options : VirtualAgvAdapterOptions}
  {adapter middle between after : VirtualAgvAdapter} {asm next : ActionStateMachine}
  {actionStatus : ActionStatus}

theorem HaveStatuses.advanceMachine (statuses : HaveStatuses adapter) (status : HasStatus next) :
    HaveStatuses (adapter.advanceMachine next) := by
  intro asm member
  obtain ⟨previous, known, rfl⟩ := List.mem_map.mp member
  split
  · exact status
  · exact statuses previous known

theorem Speaks.advanceMachine (numbered : Numbered adapter)
    (member : asm ∈ adapter.actionStateMachines) (same : next.activeAction = asm.activeAction)
    (status : HasStatus next) : Speaks adapter (adapter.advanceMachine next) where
  statuses := fun statuses => statuses.advanceMachine status
  actionContexts := by
    rw [actionContexts_eq, actionContexts_eq,
      (Carries.advanceMachine numbered member same).activeActions]
  traverseContext := rfl
  calls := ⟨[], (List.append_nil _).symm, by simp⟩

theorem HaveStatuses.reach (statuses : HaveStatuses adapter)
    (status : HasStatus { next with actionStatus := some actionStatus }) :
    HaveStatuses (adapter.reach next actionStatus) := by
  unfold VirtualAgvAdapter.reach
  dsimp only
  split
  · exact fun asm member => statuses asm (List.mem_of_mem_filter member)
  · have observed : HaveStatuses (adapter.observe
        (.reaches next.ref next.actionContext actionStatus adapter.vehicleState.currentLoad)) :=
      statuses
    exact observed.advanceMachine status

/-- The context of a machine, if it is dropped on reaching a status. -/
def droppedContext (asm : ActionStateMachine) (actionStatus : ActionStatus) : List ActionContext :=
  if actionStatus.isEnded then [asm.actionContext] else []

private theorem ends_updateActionStatus (asm : ActionStateMachine) (actionStatus : ActionStatus)
    (linkedState : LinkedState) (resultDescription errorDescription : Option String) :
    [ControllerCall.updateActionStatus asm.actionContext (some actionStatus) linkedState
      resultDescription errorDescription].filterMap (·.ends) = droppedContext asm actionStatus := by
  unfold droppedContext
  cases ended : actionStatus.isEnded <;> simp [ControllerCall.ends, ended]

private theorem reach_actions (numbered : Numbered adapter)
    (member : asm ∈ adapter.actionStateMachines)
    (same : next.activeAction = asm.activeAction) (actionStatus : ActionStatus) :
    Settles adapter.actionContexts [] (adapter.reach next actionStatus).actionContexts
      (droppedContext next actionStatus) := by
  have reached := Reaches.of_reach numbered member same actionStatus
  have contexts : next.actionContext = asm.activeAction.context :=
    congrArg ActiveAction.context same
  rw [actionContexts_eq, actionContexts_eq, reached.activeActions, droppedContext]
  split
  · have active : asm.activeAction ∈ adapter.activeActions := List.mem_map_of_mem member
    have dropped := Settles.filter (fun other => decide (other.ref ≠ asm.activeAction.ref)) active
      (by simp)
    rw [contexts]
    exact dropped.map (·.context)
  · exact .keep _ _

private theorem mem_reach (numbered : Numbered adapter) (member : asm ∈ adapter.actionStateMachines)
    (same : next.activeAction = asm.activeAction) (ongoing : actionStatus.isEnded = false) :
    next.actionContext ∈ (adapter.reach next actionStatus).actionContexts := by
  have reached := Reaches.of_reach numbered member same actionStatus
  have contexts : next.actionContext = asm.activeAction.context :=
    congrArg ActiveAction.context same
  rw [actionContexts_eq, reached.activeActions, ongoing, contexts]
  exact List.mem_map_of_mem (List.mem_map_of_mem member)

/-- Nothing but the status that has been reached is called back. -/
structure ReachesStatus (adapter middle : VirtualAgvAdapter) (next : ActionStateMachine)
    (actionStatus : ActionStatus) : Prop where
  calls : middle.calls = adapter.calls
  traverseContext : middle.traverseContext = adapter.traverseContext
  actions : Settles adapter.actionContexts [] middle.actionContexts
    (droppedContext next actionStatus)
  held : actionStatus.isEnded = false → next.actionContext ∈ middle.actionContexts
  statuses : HaveStatuses middle

private theorem reachesStatus (numbered : Numbered adapter) (statuses : HaveStatuses adapter)
    (member : asm ∈ adapter.actionStateMachines) (same : next.activeAction = asm.activeAction)
    (status : HasStatus { next with actionStatus := some actionStatus }) :
    ReachesStatus adapter (adapter.reach next actionStatus) next actionStatus where
  calls := by
    unfold reach
    dsimp only
    split <;> rfl
  traverseContext := by
    unfold reach
    dsimp only
    split <;> rfl
  actions := reach_actions numbered member same actionStatus
  held := mem_reach numbered member same
  statuses := statuses.reach status

namespace ReachesStatus

/-- Nothing is reported when a side effect throws. -/
theorem unreported (reaches : ReachesStatus adapter middle next actionStatus)
    (inputs : TickInputs) : AccountsFor (.proceed inputs) adapter middle [] where
  grown := by rw [reaches.calls, List.append_nil]
  actions := reaches.actions.unreturned
  traversals := by
    rw [reaches.traverseContext]
    exact .keep _ _
  stops := .keep _ _
  due := by simp
  statuses := reaches.statuses
  last := .of_plain (by simp)

theorem reported (reaches : ReachesStatus adapter middle next actionStatus)
    (speaks : Speaks middle between) (notWaiting : actionStatus ≠ .waiting) (inputs : TickInputs)
    (linkedState : LinkedState) (resultDescription errorDescription : Option String) :
    ∃ calls, AccountsFor (.proceed inputs) adapter
      (between.call (.updateActionStatus next.actionContext (some actionStatus) linkedState
        resultDescription errorDescription)) calls := by
  obtain ⟨earlier, grown, plain⟩ := speaks.calls
  have held : (between.call (.updateActionStatus next.actionContext (some actionStatus) linkedState
      resultDescription errorDescription)).actionContexts = middle.actionContexts :=
    speaks.actionContexts
  refine ⟨earlier ++ [.updateActionStatus next.actionContext (some actionStatus) linkedState
    resultDescription errorDescription], ?_, ?_, ?_, ?_, ?_, speaks.statuses reaches.statuses,
    .concat plain _⟩
  · simp [call, grown, reaches.calls]
  · rw [List.filterMap_append, filterMap_of_isPlain plain _ ControllerCall.ends_of_isPlain,
      ends_updateActionStatus, held]
    exact reaches.actions
  · rw [List.filterMap_append, filterMap_of_isPlain plain _ ControllerCall.arrives_of_isPlain]
    change Settles _ _ between.traverseContext.toList []
    rw [speaks.traverseContext, reaches.traverseContext]
    exact .keep _ _
  · rw [List.filterMap_append, filterMap_of_isPlain plain _ ControllerCall.halts_of_isPlain]
    exact .keep _ _
  · intro call member
    rcases List.mem_append.mp member with early | late
    · exact call.isDue_of_isPlain (plain call early) _
    · obtain rfl := List.mem_singleton.mp late
      exact ⟨notWaiting, fun ongoing => held ▸ reaches.held ongoing⟩

end ReachesStatus

private theorem transition_accountsFor (numbered : Numbered adapter)
    (statuses : HaveStatuses adapter)
    (inputs : TickInputs) (member : asm ∈ adapter.actionStateMachines)
    (same : next.activeAction = asm.activeAction)
    (status : HasStatus { next with actionStatus := some actionStatus }) :
    ∃ calls, AccountsFor (.proceed inputs) adapter (adapter.transition inputs next actionStatus).1
      calls := by
  have reaches := reachesStatus numbered statuses member same status
  have notWaiting : actionStatus ≠ .waiting := fun waiting => status.current (congrArg some waiting)
  unfold transition
  cases actionStatus with
  | finished =>
      dsimp only
      cases affected : (adapter.reach next .finished).finishedEffect inputs next with
      | none => exact ⟨[], reaches.unreported inputs⟩
      | some result =>
          exact reaches.reported (Speaks.finishedEffect affected) notWaiting inputs _ _ _
  | failed | initializing | paused | running =>
      exact reaches.reported (.refl _) notWaiting inputs _ _ _
  | waiting => exact absurd rfl notWaiting

private theorem tickMachine_accountsFor (math : MathLibrary) (numbered : Numbered adapter)
    (statuses : HaveStatuses adapter) (inputs : TickInputs) (realInterval : Rat)
    (member : asm ∈ adapter.actionStateMachines) :
    ∃ calls, AccountsFor (.proceed inputs) adapter
      (adapter.tickMachine math inputs realInterval asm).1 calls := by
  have about := asm.isAbout_tick math realInterval
  have status := (statuses asm member).tick math realInterval
  unfold tickMachine
  cases ticked : asm.tick math realInterval with
  | stays next =>
      rw [ticked] at about status
      exact AccountsFor.of_speaks statuses (Speaks.advanceMachine numbered member about status) _
  | transitions next actionStatus =>
      rw [ticked] at about status
      obtain ⟨status, reported, rfl, -⟩ := status
      exact transition_accountsFor numbered statuses inputs member about status
  | typeError => exact AccountsFor.of_speaks statuses (.refl _) _

/-! ## Steps -/

private theorem standStillIf_speaks (adapter : VirtualAgvAdapter) (stops : Prop) [Decidable stops] :
    Speaks adapter (if stops then adapter.standStill else adapter) := by
  split
  · exact (Speaks.refl adapter).standStill
  · exact .refl adapter

private theorem accept_accountsFor (statuses : HaveStatuses adapter) (context : ActionContext)
    {definition : VirtualActionDefinition} (defined : definition ∈ actionDefinitions) :
    ∃ calls, AccountsFor (.executeAction context) adapter (adapter.accept context definition)
      calls := by
  have stands := standStillIf_speaks adapter (context.stopDriving = some true)
  refine AccountsFor.after_speaks stands (?_ : AccountsFor _ _ _ [])
  refine ⟨(List.append_nil _).symm, ?_, .keep _ _, .keep _ _, by simp, ?_, .of_plain (by simp)⟩
  · simp only [AdapterEvent.executes, accept, observe, actionContexts, newMachine,
      List.map_append, List.map_cons, List.map_nil]
    exact .take _ _
  · intro asm member
    rcases List.mem_append.mp member with earlier | new
    · exact stands.statuses statuses asm earlier
    · obtain rfl := List.mem_singleton.mp new
      exact ⟨defined, by simp [newMachine], by simp [newMachine]⟩

private theorem executeAction_accountsFor (statuses : HaveStatuses adapter)
    (context : ActionContext) :
    ∃ calls,
      AccountsFor (.executeAction context) adapter (adapter.executeAction context) calls := by
  unfold executeAction
  cases defined : getActionDefinition context.action context.scope with
  | none => exact AccountsFor.of_speaks statuses (.refl _) _
  | some definition =>
      dsimp only
      split
      · exact accept_accountsFor statuses context (List.mem_of_find?_eq_some defined)
      · refine ⟨[_], rfl, .refuse _ _, .keep _ _, .keep _ _, ?_, statuses,
          .concat (by simp : ∀ call ∈ [], _) _⟩
        intro call member
        obtain rfl := List.mem_singleton.mp member
        exact ⟨by simp, by simp [ActionStatus.isEnded]⟩

private theorem updateMatching_accountsFor (numbered : Numbered adapter)
    (statuses : HaveStatuses adapter) (update : ActionStateMachine → ActionStateMachine)
    (same : ∀ asm, (update asm).activeAction = asm.activeAction)
    (status : ∀ asm, HasStatus asm → HasStatus (update asm)) (context : ActionContext)
    (event : AdapterEvent) :
    ∃ calls, AccountsFor event adapter (adapter.updateMatching update context) calls := by
  unfold updateMatching
  split
  · exact AccountsFor.of_speaks statuses (.refl _) _
  · next asm found =>
    have member := List.mem_of_find?_eq_some found
    exact AccountsFor.of_speaks statuses
      (.advanceMachine numbered member (same asm) (status asm (statuses asm member))) _

/-- The traversed edge is given up, and a call that is no report of an action follows. -/
private theorem givenUp_accountsFor (statuses : HaveStatuses adapter)
    (speaks : Speaks { adapter with traverseContext := none } between) {event : AdapterEvent}
    {call : ControllerCall} (ends : call.ends = none) (due : ∀ held, call.IsDue held)
    (arrives : Settles adapter.traverseContext.toList event.traverses [] call.arrives.toList)
    (halts : Settles [] event.stops [] call.halts.toList) :
    ∃ calls, AccountsFor event adapter (between.call call) calls := by
  obtain ⟨earlier, grown, plain⟩ := speaks.calls
  refine ⟨earlier ++ [call], ?_, ?_, ?_, ?_, ?_, speaks.statuses statuses, .concat plain _⟩
  · rw [← List.append_assoc]
    exact congrArg (· ++ [call]) grown
  · rw [List.filterMap_append, filterMap_of_isPlain plain _ ControllerCall.ends_of_isPlain,
      List.filterMap_cons_none ends]
    change Settles _ _ between.actionContexts []
    rw [speaks.actionContexts]
    exact .keep _ _
  · have traverseContext : (between.call call).traverseContext = none := speaks.traverseContext
    rw [List.filterMap_append, filterMap_of_isPlain plain _ ControllerCall.arrives_of_isPlain,
      traverseContext, filterMap_singleton]
    exact arrives
  · rw [List.filterMap_append, filterMap_of_isPlain plain _ ControllerCall.halts_of_isPlain,
      filterMap_singleton]
    exact halts
  · intro other member
    rcases List.mem_append.mp member with early | late
    · exact other.isDue_of_isPlain (plain other early) _
    · obtain rfl := List.mem_singleton.mp late
      exact due _

private theorem stopTraverse_accountsFor (statuses : HaveStatuses adapter)
    (context : StopTraverseContext) :
    ∃ calls, AccountsFor (.stopTraverse context) adapter (adapter.stopTraverse context) calls :=
  givenUp_accountsFor statuses ((Speaks.refl _).standStill.stopPauseState) rfl (fun _ => trivial)
    (.drop _ _) (.refuse _ _)

private theorem arrive_accountsFor (math : MathLibrary) (options : VirtualAgvAdapterOptions)
    (statuses : HaveStatuses adapter) {context : TraverseEdgeContext}
    (traversing : adapter.traverseContext = some context) (position : NodePosition)
    (inputs : TickInputs) :
    ∃ calls, AccountsFor (.proceed inputs) adapter (adapter.arrive math options context position)
      calls := by
  have moved := ((Speaks.refl adapter).move math options position.x position.y
    (position.theta.getD adapter.vehicleState.position.theta)
    (position.x - adapter.vehicleState.position.x)
    (position.y - adapter.vehicleState.position.y)).stopDriving
  refine givenUp_accountsFor statuses moved.giveUp rfl (fun _ => trivial) ?_ (.keep _ _)
  rw [traversing]
  exact .giveBack _ _

private theorem advanceTraverse_accountsFor (math : MathLibrary)
    (options : VirtualAgvAdapterOptions)
    (statuses : HaveStatuses adapter) (inputs : TickInputs) (realInterval : Rat) :
    ∃ calls, AccountsFor (.proceed inputs) adapter
      (adapter.advanceTraverse math options inputs realInterval).1 calls := by
  have stays := AccountsFor.of_speaks statuses (.refl adapter) (.proceed inputs)
  unfold advanceTraverse
  cases traversing : adapter.traverseContext with
  | none => exact stays
  | some context =>
      dsimp only
      split
      · exact stays
      · cases context.endNode.bind (·.nodePosition) with
        | none => exact stays
        | some position =>
            dsimp only
            split
            · split
              · exact stays
              · exact AccountsFor.of_speaks statuses ((Speaks.refl adapter).startDriving _ _) _
            · split
              · exact arrive_accountsFor math options statuses traversing position inputs
              · exact AccountsFor.of_speaks statuses (.driveOn math options context _ _ _) _

private theorem continueTick_accountsFor {result : VirtualAgvAdapter × Bool} {event : AdapterEvent}
    (accounts : ∃ calls, AccountsFor event adapter result.1 calls) (realInterval : Rat)
    (phase : TickPhase) :
    ∃ calls, AccountsFor event adapter (continueTick realInterval phase result) calls := by
  obtain ⟨calls, accounts⟩ := accounts
  exact ⟨calls, accounts.of_same rfl rfl rfl⟩

private theorem proceed_accountsFor (math : MathLibrary) (options : VirtualAgvAdapterOptions)
    (numbered : Numbered adapter) (statuses : HaveStatuses adapter) (inputs : TickInputs)
    (ongoing : OngoingTick) :
    ∃ calls, AccountsFor (.proceed inputs) adapter (adapter.proceed math options inputs ongoing)
      calls := by
  unfold proceed
  dsimp only
  cases ongoing.phase with
  | machines index =>
      dsimp only
      cases found : adapter.actionStateMachines[index]? with
      | none =>
          exact continueTick_accountsFor (AccountsFor.of_speaks statuses (.refl adapter) _) _ _
      | some asm =>
          exact continueTick_accountsFor (tickMachine_accountsFor math numbered statuses inputs _
            (List.mem_of_getElem? found)) _ _
  | traverse =>
      exact continueTick_accountsFor
        (advanceTraverse_accountsFor math options statuses inputs _) _ _
  | charge =>
      obtain ⟨calls, accounts⟩ := AccountsFor.of_speaks statuses
        (Speaks.advanceBatteryCharge options ongoing.realInterval) (.proceed inputs)
      exact ⟨calls, accounts.of_same rfl rfl rfl⟩

/-- Every step keeps the accounts. -/
theorem step_accountsFor (numbered : Numbered adapter) (statuses : HaveStatuses adapter)
    {event : AdapterEvent} (stepped : step math options adapter event = some after) :
    ∃ calls, AccountsFor event adapter after calls := by
  cases event with
  | executeAction context =>
      exact Option.some.inj stepped ▸ executeAction_accountsFor statuses context
  | finishEdgeAction context =>
      exact Option.some.inj stepped ▸ updateMatching_accountsFor numbered statuses _
        ActionStateMachine.activeAction_terminate (fun _ status => status.terminate) context _
  | cancelAction context =>
      exact Option.some.inj stepped ▸ updateMatching_accountsFor numbered statuses _
        ActionStateMachine.activeAction_cancel (fun _ status => status.cancel) context _
  | traverseEdge context =>
      obtain rfl := Option.some.inj stepped
      exact ⟨[], (List.append_nil _).symm, .keep _ _, .replace _ _, .keep _ _, by simp, statuses,
        .of_plain (by simp)⟩
  | stopTraverse context =>
      exact Option.some.inj stepped ▸ stopTraverse_accountsFor statuses context
  | onTick realInterval =>
      simp only [step] at stepped
      split at stepped
      · cases stepped
      · obtain rfl := Option.some.inj stepped
        have begun : Speaks adapter (adapter.onTick realInterval) := .of_same rfl rfl rfl
        exact AccountsFor.of_speaks statuses begun _
  | proceed inputs =>
      simp only [step, Option.map_eq_some_iff] at stepped
      obtain ⟨ongoing, -, rfl⟩ := stepped
      exact proceed_accountsFor math options numbered statuses inputs ongoing

/-- Handlers give up no action. -/
theorem held_of_step (numbered : Numbered adapter) {event : AdapterEvent}
    (handled : ∀ inputs, event ≠ .proceed inputs)
    (stepped : step math options adapter event = some after) :
    adapter.actionContexts ⊆ after.actionContexts := by
  rw [actionContexts_eq, actionContexts_eq]
  cases step_actionStep numbered stepped with
  | carries carried => exact carried.activeActions ▸ List.Subset.refl _
  | drives _ _ _ _ kept => exact kept.activeActions ▸ List.Subset.refl _
  | accepts _ _ _ accepted =>
      rw [accepted.activeActions, List.map_append]
      exact List.subset_append_left _ _
  | reaches proceeds => exact absurd proceeds (handled _)

end VirtualAgvAdapter

end Vda5050
