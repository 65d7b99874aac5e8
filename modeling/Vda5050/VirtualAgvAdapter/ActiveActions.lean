import Mathlib.Data.List.Nodup
import Vda5050.VirtualAgvAdapter.Effects

/-!
# The active actions of the virtual AGV

The actions accepted and not yet ended, apart from how far their machines have
come. A step accepts an action, lets an action reach a status, starts driving,
or carries the active actions along.
-/

set_option autoImplicit false

namespace Vda5050

namespace VirtualAgvAdapter

/-! ## Active actions -/

/-- What stays the same of an action state machine. -/
structure ActiveAction where
  ref : Nat
  context : ActionContext
  definition : VirtualActionDefinition
  deriving DecidableEq, Repr

def ActionStateMachine.activeAction (asm : ActionStateMachine) : ActiveAction where
  ref := asm.ref
  context := asm.actionContext
  definition := asm.actionDefinition

def activeActions (adapter : VirtualAgvAdapter) : List ActiveAction :=
  adapter.actionStateMachines.map (·.activeAction)

def hasLoad (adapter : VirtualAgvAdapter) : Bool := adapter.vehicleState.currentLoad.isSome

/-- Machines have identities of their own, given out in ascending order. -/
structure Numbered (adapter : VirtualAgvAdapter) : Prop where
  unique : (adapter.activeActions.map (·.ref)).Nodup
  below : ∀ active ∈ adapter.activeActions, active.ref < adapter.nextRef

/-! ## Ticks of a machine -/

namespace ActionStateMachine

/-- The machine an outcome is about. -/
def IsAbout (asm : ActionStateMachine) : TickOutcome → Prop
  | .stays next | .transitions next _ => next.activeAction = asm.activeAction
  | .typeError => True

variable (math : MathLibrary) (asm : ActionStateMachine)

private theorem isAbout_passTime (actionStatus : ActionStatus) (realInterval : Rat) :
    asm.IsAbout (asm.passTime math actionStatus realInterval) := by
  unfold passTime
  cases asm.timedTransition actionStatus with
  | none => trivial
  | some transition =>
      cases transition with
      | none => rfl
      | some timed =>
          dsimp only
          split <;> rfl

/-- A tick does not change which action a machine is about. -/
theorem isAbout_tick (realInterval : Rat) : asm.IsAbout (asm.tick math realInterval) := by
  unfold tick
  dsimp only
  split
  · rfl
  split
  · rfl
  split
  · rfl
  cases asm.actionStatus with
  | none => rfl
  | some actionStatus =>
      dsimp only
      split
      · rfl
      split
      · cases asm.actionDefinition.transitions.onTerminate with
        | none => trivial
        | some next => rfl
      split
      · rfl
      · exact asm.isAbout_passTime math actionStatus realInterval

@[simp] theorem activeAction_terminate : asm.terminate.activeAction = asm.activeAction := by
  unfold terminate
  split <;> rfl

@[simp] theorem activeAction_cancel : asm.cancel.activeAction = asm.activeAction := by
  unfold cancel
  split <;> rfl

@[simp] theorem activeAction_pause : asm.pause.activeAction = asm.activeAction := rfl

@[simp] theorem activeAction_unpause : asm.unpause.activeAction = asm.activeAction := rfl

end ActionStateMachine

/-! ## Operations carrying the active actions along -/

/-- The active actions, their history and the load stay the same. -/
structure Keeps (before after : VirtualAgvAdapter) : Prop where
  activeActions : after.activeActions = before.activeActions
  nextRef : after.nextRef = before.nextRef
  history : after.history = before.history
  hasLoad : after.hasLoad = before.hasLoad

/-- In addition, the vehicle does not drive unless it did before. -/
structure Carries (before after : VirtualAgvAdapter) : Prop extends Keeps before after where
  isDriving : after.vehicleState.isDriving = true → before.vehicleState.isDriving = true

theorem Quiet.carries {before after : VirtualAgvAdapter} (quiet : Quiet before after) :
    Carries before after where
  activeActions := by rw [activeActions, quiet.machines]; rfl
  nextRef := quiet.nextRef
  history := quiet.history
  hasLoad := by rw [hasLoad, quiet.currentLoad]; rfl
  isDriving := quiet.isDriving

namespace Carries

variable {before between after adapter : VirtualAgvAdapter}

protected theorem refl : Carries adapter adapter := ⟨⟨rfl, rfl, rfl, rfl⟩, id⟩

protected theorem trans (first : Carries before between) (second : Carries between after) :
    Carries before after where
  activeActions := second.activeActions.trans first.activeActions
  nextRef := second.nextRef.trans first.nextRef
  history := second.history.trans first.history
  hasLoad := second.hasLoad.trans first.hasLoad
  isDriving := first.isDriving ∘ second.isDriving

/-- Changing each machine without changing what it is about. -/
theorem updateMachines (update : ActionStateMachine → ActionStateMachine)
    (same : ∀ asm, (update asm).activeAction = asm.activeAction) :
    Carries adapter (adapter.updateMachines fun machines => machines.map update) where
  activeActions := by
    simp [VirtualAgvAdapter.activeActions, VirtualAgvAdapter.updateMachines,
      Function.comp_def, same]
  nextRef := rfl
  history := rfl
  hasLoad := rfl
  isDriving := id

private theorem setPaused (adapter : VirtualAgvAdapter) (isPaused : Bool) :
    Carries adapter (adapter.updateVehicle fun vehicle => { vehicle with isPaused }) :=
  ⟨⟨rfl, rfl, rfl, rfl⟩, id⟩

theorem startPause (ref : Nat) : Carries adapter (adapter.startPause ref).1 := by
  unfold VirtualAgvAdapter.startPause
  split
  · exact .refl
  · exact (Quiet.refl.standStill.carries.trans (setPaused _ true)).trans
      (updateMachines _ fun asm => by split <;> rfl)

theorem stopPause (ref : Nat) : Carries adapter (adapter.stopPause ref).1 := by
  unfold VirtualAgvAdapter.stopPause
  split
  · exact .refl
  · exact (setPaused _ false).trans (updateMachines _ fun asm => by split <;> rfl)

theorem stopPauseState : Carries adapter adapter.stopPauseState := by
  unfold VirtualAgvAdapter.stopPauseState
  split
  · exact .refl
  · exact (setPaused _ false).trans (Quiet.refl.call _).carries

/-- The next state of a machine takes the place of that machine only. -/
theorem advanceMachine (numbered : Numbered adapter) {asm next : ActionStateMachine}
    (member : asm ∈ adapter.actionStateMachines) (same : next.activeAction = asm.activeAction) :
    Carries adapter (adapter.advanceMachine next) where
  activeActions := by
    simp only [VirtualAgvAdapter.activeActions, VirtualAgvAdapter.advanceMachine,
      VirtualAgvAdapter.updateMachines, List.map_map]
    apply List.map_congr_left
    intro other otherMember
    simp only [Function.comp_apply]
    split
    · next sameRef =>
      have refs : other.activeAction.ref = asm.activeAction.ref := by
        rw [← same]
        exact sameRef
      have active := List.inj_on_of_nodup_map numbered.unique
        (List.mem_map_of_mem otherMember) (List.mem_map_of_mem member) refs
      rw [same, active]
    · rfl
  nextRef := rfl
  history := rfl
  hasLoad := rfl
  isDriving := id

end Carries

/-! ## Accepting an action -/

/-- An action becomes active. The vehicle stands still if it has to. -/
structure Accepts (before : VirtualAgvAdapter) (context : ActionContext)
    (definition : VirtualActionDefinition) (after : VirtualAgvAdapter) : Prop where
  activeActions : after.activeActions = before.activeActions ++
    [{ ref := before.nextRef, context, definition }]
  nextRef : after.nextRef = before.nextRef + 1
  history : after.history = before.history ++ [.accepts before.nextRef context]
  hasLoad : after.hasLoad = before.hasLoad
  isDriving : after.vehicleState.isDriving = true → before.vehicleState.isDriving = true
  stands : context.stopDriving = some true → after.vehicleState.isDriving = false

namespace Accepts

variable {before between after adapter : VirtualAgvAdapter} {context : ActionContext}
  {definition : VirtualActionDefinition}

private theorem carry (accepted : Accepts before context definition between)
    (carried : Carries between after) : Accepts before context definition after where
  activeActions := carried.activeActions.trans accepted.activeActions
  nextRef := carried.nextRef.trans accepted.nextRef
  history := carried.history.trans accepted.history
  hasLoad := carried.hasLoad.trans accepted.hasLoad
  isDriving := accepted.isDriving ∘ carried.isDriving
  stands := by
    intro stops
    rw [← Bool.not_eq_true]
    intro drives
    have standing := accepted.stands stops
    rw [carried.isDriving drives] at standing
    cases standing

private theorem of_accept :
    Accepts adapter context definition (adapter.accept context definition) := by
  have standing : Quiet adapter
      (if context.stopDriving = some true then adapter.standStill else adapter) :=
    Quiet.refl.standStillIf _
  have stands : context.stopDriving = some true →
      (if context.stopDriving = some true then adapter.standStill
        else adapter).vehicleState.isDriving = false := by
    intro stops
    rw [if_pos stops, standStill]
    split
    · rfl
    · next still => simpa using still
  constructor
  · simp [VirtualAgvAdapter.activeActions, accept, observe, newMachine, standing.machines,
      standing.nextRef, ActionStateMachine.activeAction]
  · exact congrArg (· + 1) standing.nextRef
  · simp [accept, observe, standing.history, standing.nextRef]
  · exact congrArg Option.isSome standing.currentLoad
  · exact standing.isDriving
  · exact stands

end Accepts

/-! ## Reaching a status -/

/-- What the side effect of an action makes of the load. -/
def FinishedEffect.loadAfter : FinishedEffect → Bool → Bool
  | .loadAdded, _ => true
  | .loadRemoved, _ => false
  | .none, hasLoad | .initPosition, hasLoad | .startPause, hasLoad | .stopPause, hasLoad
  | .startCharging, hasLoad | .stopCharging, hasLoad => hasLoad

/-- An active action reaches a status, and is active no more if it has ended.
Whether there is a load afterwards is given. -/
structure Reaches (before : VirtualAgvAdapter) (active : ActiveAction)
    (actionStatus : ActionStatus) (hasLoad : Bool) (after : VirtualAgvAdapter) : Prop where
  activeActions : after.activeActions =
    if actionStatus.isEnded then before.activeActions.filter (·.ref ≠ active.ref)
    else before.activeActions
  nextRef : after.nextRef = before.nextRef
  history : after.history = before.history ++
    [.reaches active.ref active.context actionStatus before.vehicleState.currentLoad]
  hasLoad : after.hasLoad = hasLoad
  isDriving : after.vehicleState.isDriving = true → before.vehicleState.isDriving = true

namespace Reaches

variable {before between after adapter : VirtualAgvAdapter} {active : ActiveAction}
  {actionStatus : ActionStatus} {hasLoad : Bool}

private theorem carry (reached : Reaches before active actionStatus hasLoad between)
    (carried : Carries between after) : Reaches before active actionStatus hasLoad after where
  activeActions := carried.activeActions.trans reached.activeActions
  nextRef := carried.nextRef.trans reached.nextRef
  history := carried.history.trans reached.history
  hasLoad := carried.hasLoad.trans reached.hasLoad
  isDriving := reached.isDriving ∘ carried.isDriving

private theorem setLoad (reached : Reaches before active actionStatus hasLoad between)
    (currentLoad : Option Load) :
    Reaches before active actionStatus currentLoad.isSome
      (between.updateVehicle fun vehicle => { vehicle with currentLoad }) :=
  ⟨reached.activeActions, reached.nextRef, reached.history, rfl, reached.isDriving⟩

theorem of_reach (numbered : Numbered adapter) {asm next : ActionStateMachine}
    (member : asm ∈ adapter.actionStateMachines) (same : next.activeAction = asm.activeAction)
    (actionStatus : ActionStatus) :
    Reaches adapter asm.activeAction actionStatus adapter.hasLoad
      (adapter.reach next actionStatus) := by
  have refs : next.ref = asm.ref := congrArg ActiveAction.ref same
  have contexts : next.actionContext = asm.actionContext := congrArg ActiveAction.context same
  unfold reach
  dsimp only
  split
  · next ended =>
    constructor
    · rw [if_pos ended, refs]
      simp only [VirtualAgvAdapter.activeActions, finalizeAction, updateMachines, observe,
        List.filter_map]
      rfl
    · rfl
    · rw [refs, contexts]
      rfl
    · rfl
    · exact id
  · next ongoing =>
    have moved : ({ next with actionStatus := some actionStatus } : ActionStateMachine).activeAction =
        asm.activeAction := same
    have carried := Carries.advanceMachine numbered member moved
    constructor
    · rw [if_neg ongoing]
      exact carried.activeActions
    · rfl
    · rw [refs, contexts]
      rfl
    · rfl
    · exact id

/-- The side effect of an action that finishes. -/
theorem finishedEffect {inputs : TickInputs} {asm : ActionStateMachine} {linkedState : LinkedState}
    (reached : Reaches before active actionStatus hasLoad between)
    (affected : between.finishedEffect inputs asm = some (after, linkedState)) :
    Reaches before active actionStatus
      (asm.actionDefinition.transitions.finishedEffect.loadAfter hasLoad) after := by
  unfold VirtualAgvAdapter.finishedEffect at affected
  cases effect : asm.actionDefinition.transitions.finishedEffect <;>
    simp only [effect, Option.some.injEq] at affected
  case initPosition => exact reached.carry (Quiet.initPosition affected).carries
  all_goals
    have result := congrArg Prod.fst affected
    dsimp only at result
    rw [← result]
  case none => exact reached
  case loadAdded => exact reached.setLoad (some _)
  case loadRemoved => exact reached.setLoad none
  case startPause => exact reached.carry (Carries.startPause _)
  case stopPause => exact reached.carry (Carries.stopPause _)
  case startCharging => exact reached.carry Quiet.refl.startCharging.carries
  case stopCharging => exact reached.carry Quiet.refl.stopCharging.carries

/-- Only missing parameters of `initPosition` make a side effect throw. -/
private theorem of_no_finishedEffect {inputs : TickInputs} {asm : ActionStateMachine}
    (thrown : between.finishedEffect inputs asm = none) :
    asm.actionDefinition.transitions.finishedEffect.loadAfter hasLoad = hasLoad := by
  unfold VirtualAgvAdapter.finishedEffect at thrown
  cases effect : asm.actionDefinition.transitions.finishedEffect <;>
    simp_all [FinishedEffect.loadAfter]

/-- Whether there is a load after a transition. -/
def loadAfter (asm : ActionStateMachine) (actionStatus : ActionStatus) (hasLoad : Bool) : Bool :=
  if actionStatus = .finished then
    asm.actionDefinition.transitions.finishedEffect.loadAfter hasLoad
  else hasLoad

theorem of_transition (numbered : Numbered adapter) (inputs : TickInputs)
    {asm next : ActionStateMachine} (member : asm ∈ adapter.actionStateMachines)
    (same : next.activeAction = asm.activeAction) (actionStatus : ActionStatus) :
    Reaches adapter asm.activeAction actionStatus
      (loadAfter asm actionStatus adapter.hasLoad)
      (adapter.transition inputs next actionStatus).1 := by
  have reached := of_reach numbered member same actionStatus
  have definitions : next.actionDefinition = asm.actionDefinition :=
    congrArg ActiveAction.definition same
  unfold transition loadAfter
  cases actionStatus with
  | finished =>
      dsimp only
      rw [if_pos rfl, ← definitions]
      cases affected : (adapter.reach next .finished).finishedEffect inputs next with
      | none =>
          rw [of_no_finishedEffect affected]
          exact reached
      | some result =>
          obtain ⟨after, linkedState⟩ := result
          exact (reached.finishedEffect affected).carry (Quiet.refl.call _).carries
  | failed | initializing | paused | running | waiting =>
      exact reached.carry (Quiet.refl.call _).carries

end Reaches

/-! ## Steps -/

/-- What a step does to the active actions. -/
inductive ActionStep (math : MathLibrary) (options : VirtualAgvAdapterOptions)
    (adapter : VirtualAgvAdapter) (event : AdapterEvent) (after : VirtualAgvAdapter) : Prop where
  | carries (carried : Carries adapter after)
  | accepts {context : ActionContext} {definition : VirtualActionDefinition}
      (handedOver : event = .executeAction context)
      (defined : getActionDefinition context.action context.scope = some definition)
      (executable : adapter.canExecute context definition.actionExecutable = true)
      (accepted : Accepts adapter context definition after)
  | drives {inputs : TickInputs} {ongoing : OngoingTick}
      (proceeds : event = .proceed inputs) (ticking : adapter.ongoingTick = some ongoing)
      (phase : ongoing.phase = .traverse) (ready : adapter.isReadyToDrive options = true)
      (kept : Keeps adapter after)
  | reaches {inputs : TickInputs} {ongoing : OngoingTick} {index : Nat}
      {asm next : ActionStateMachine} {actionStatus : ActionStatus}
      (proceeds : event = .proceed inputs) (ticking : adapter.ongoingTick = some ongoing)
      (phase : ongoing.phase = .machines index)
      (found : adapter.actionStateMachines[index]? = some asm)
      (ticked : asm.tick math ongoing.realInterval = .transitions next (some actionStatus))
      (reached : Reaches adapter asm.activeAction actionStatus
        (Reaches.loadAfter asm actionStatus adapter.hasLoad) after)

variable {math : MathLibrary} {options : VirtualAgvAdapterOptions}
  {adapter next : VirtualAgvAdapter}

theorem step_actionStep (numbered : Numbered adapter) {event : AdapterEvent}
    (stepped : step math options adapter event = some next) :
    ActionStep math options adapter event next := by
  obtain ⟨changed, change, quiet⟩ := step_change stepped
  have carried := quiet.carries
  cases change with
  | nothing => exact .carries carried
  | accepts defined executable =>
      exact .accepts rfl defined executable (Accepts.of_accept.carry carried)
  | terminates member =>
      have advanced := Carries.advanceMachine numbered member
        (ActionStateMachine.activeAction_terminate _)
      exact .carries (advanced.trans carried)
  | cancels member =>
      have advanced := Carries.advanceMachine numbered member
        (ActionStateMachine.activeAction_cancel _)
      exact .carries (advanced.trans carried)
  | unpauses =>
      have cleared : Quiet adapter { adapter with traverseContext := none } :=
        ⟨rfl, rfl, rfl, rfl, rfl, id⟩
      exact .carries ((cleared.standStill.carries.trans Carries.stopPauseState).trans carried)
  | drives vx vy ticking phase ready =>
      exact .drives rfl ticking phase ready
        ⟨carried.activeActions, carried.nextRef, carried.history, carried.hasLoad⟩
  | ticks ticking phase found =>
      rename_i inputs ongoing index asm
      have member := List.mem_of_getElem? found
      have about := asm.isAbout_tick math ongoing.realInterval
      cases ticked : asm.tick math ongoing.realInterval with
      | stays following =>
          rw [ticked] at about
          rw [tickMachine, ticked] at carried
          exact .carries ((Carries.advanceMachine numbered member about).trans carried)
      | typeError =>
          rw [tickMachine, ticked] at carried
          exact .carries carried
      | transitions following status =>
          rw [ticked] at about
          rw [tickMachine, ticked] at carried
          cases status with
          | none =>
              have moved : ({ following with actionStatus := none } :
                  ActionStateMachine).activeAction = asm.activeAction := about
              have advanced := Carries.advanceMachine numbered member moved
              exact .carries ((advanced.trans (Quiet.refl.call _).carries).trans carried)
          | some actionStatus =>
              have reached := Reaches.of_transition numbered inputs member about actionStatus
              exact .reaches rfl ticking phase found ticked (reached.carry carried)

/-! ## Invariants of runs -/

theorem Numbered.keep {before after : VirtualAgvAdapter} (numbered : Numbered before)
    (kept : Keeps before after) : Numbered after where
  unique := by
    rw [kept.activeActions]
    exact numbered.unique
  below := by
    rw [kept.activeActions, kept.nextRef]
    exact numbered.below

theorem Numbered.accept {before after : VirtualAgvAdapter} {context : ActionContext}
    {definition : VirtualActionDefinition} (numbered : Numbered before)
    (accepted : Accepts before context definition after) : Numbered after where
  unique := by
    rw [accepted.activeActions, List.map_append, List.nodup_append]
    refine ⟨numbered.unique, List.nodup_singleton _, ?_⟩
    intro ref member new newMember
    obtain ⟨active, activeMember, rfl⟩ := List.mem_map.mp member
    have below := numbered.below active activeMember
    simp only [List.map_cons, List.map_nil, List.mem_singleton] at newMember
    omega
  below := by
    intro active member
    rw [accepted.activeActions, List.mem_append, List.mem_singleton] at member
    rw [accepted.nextRef]
    cases member with
    | inl member =>
        have below := numbered.below active member
        omega
    | inr new =>
        subst new
        exact Nat.lt_succ_self _

theorem Reaches.sublist {before after : VirtualAgvAdapter} {active : ActiveAction}
    {actionStatus : ActionStatus} {hasLoad : Bool}
    (reached : Reaches before active actionStatus hasLoad after) :
    after.activeActions.Sublist before.activeActions := by
  rw [reached.activeActions]
  split
  · exact List.filter_sublist
  · exact .refl _

theorem Numbered.reach {before after : VirtualAgvAdapter} {active : ActiveAction}
    {actionStatus : ActionStatus} {hasLoad : Bool} (numbered : Numbered before)
    (reached : Reaches before active actionStatus hasLoad after) : Numbered after where
  unique := numbered.unique.sublist (reached.sublist.map _)
  below := by
    intro other member
    rw [reached.nextRef]
    exact numbered.below other (reached.sublist.subset member)

theorem Numbered.of_step (numbered : Numbered adapter) {event : AdapterEvent}
    (stepped : step math options adapter event = some next) : Numbered next := by
  cases step_actionStep numbered stepped with
  | carries carried => exact numbered.keep carried.toKeeps
  | accepts handedOver defined executable accepted => exact numbered.accept accepted
  | drives proceeds ticking phase ready kept => exact numbered.keep kept
  | reaches proceeds ticking phase found ticked reached => exact numbered.reach reached

theorem numbered_of_run {condition : VirtualAgvAdapter → AdapterEvent → Prop}
    {events : List AdapterEvent} (run : AdapterRun math options condition events adapter) :
    Numbered adapter := by
  refine Library.Run.invariant Numbered ?_ ?_ run
  · constructor
    · exact List.nodup_nil
    · intro active member
      cases member
  · intro events state event next _ numbered _ stepped
    exact numbered.of_step stepped

/-- An invariant of the active actions, their history, the load and driving is
preserved by every step if it is preserved by each of the four changes. -/
theorem actionInvariant {condition : VirtualAgvAdapter → AdapterEvent → Prop}
    (inv : VirtualAgvAdapter → Prop) (initial : inv (attached options))
    (preserved : ∀ {state event next}, Numbered state → inv state → condition state event →
      ActionStep math options state event next → inv next)
    {events : List AdapterEvent} (run : AdapterRun math options condition events adapter) :
    inv adapter := by
  refine Library.Run.invariant inv initial ?_ run
  intro events state event next earlier holds permitted stepped
  have numbered := numbered_of_run earlier
  exact preserved numbered holds permitted (step_actionStep numbered stepped)

end VirtualAgvAdapter

end Vda5050
