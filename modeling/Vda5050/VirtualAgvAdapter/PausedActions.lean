import Vda5050.VirtualAgvAdapter.StandingActions

/-!
# Pausing and resuming actions

Machines are requested to pause only while the vehicle is paused, and a paused
machine resumes as soon as it is not requested to pause any more. Stopping an
edge traversal ends the pause of the vehicle without resuming the machines.
-/

set_option autoImplicit false

namespace Vda5050

namespace VirtualAgvAdapter

/-! ## Machines that can be resumed -/

/-- The status a machine has after its next tick. -/
def ActionStateMachine.statusAfterTick (math : MathLibrary) (realInterval : Rat)
    (asm : ActionStateMachine) : Option ActionStatus :=
  match asm.tick math realInterval with
  | .stays next => next.actionStatus
  | .transitions _ actionStatus => actionStatus
  | .typeError => asm.actionStatus

/-- Statuses other than `PAUSED` are the only ones entered by a definition. -/
private theorem not_paused_of_mem_actionDefinitions :
    ∀ definition ∈ actionDefinitions, definition.transitions.onInit ≠ .paused ∧
      definition.transitions.onTerminate ≠ some .paused ∧
      (∀ timed ∈ definition.transitions.initializing, timed.next ≠ .paused) ∧
      ∀ timed ∈ definition.transitions.running, timed.next ≠ .paused := by
  decide

/-- The status to resume is known if the machine is paused. -/
structure IsResumable (asm : ActionStateMachine) : Prop where
  active : asm.isActive = true
  defined : asm.actionDefinition ∈ actionDefinitions
  resumes : asm.actionStatus = some .paused →
    ∃ actionStatus, asm.actionStatusOnPause = some actionStatus ∧ actionStatus ≠ .paused

/-- What a tick leads to can be resumed, is requested to pause as before, and is
paused only if it is requested to. -/
def ActionStateMachine.KeepsResumable (asm : ActionStateMachine) : TickOutcome → Prop
  | .stays next =>
      IsResumable next ∧ next.shouldPause = asm.shouldPause ∧
        (next.actionStatus = some .paused → asm.shouldPause = true)
  | .transitions next actionStatus =>
      IsResumable { next with actionStatus } ∧ next.shouldPause = asm.shouldPause ∧
        (actionStatus = some .paused → asm.shouldPause = true)
  | .typeError => asm.actionStatus = some .paused → asm.shouldPause = true

namespace IsResumable

variable {asm next : ActionStateMachine}

theorem of_same (resumable : IsResumable asm) (active : next.isActive = asm.isActive)
    (definition : next.actionDefinition = asm.actionDefinition)
    (actionStatus : next.actionStatus = asm.actionStatus)
    (onPause : next.actionStatusOnPause = asm.actionStatusOnPause) : IsResumable next where
  active := active.trans resumable.active
  defined := definition ▸ resumable.defined
  resumes := by
    rw [actionStatus, onPause]
    exact resumable.resumes

/-- Transitions to a status other than `PAUSED`. -/
private theorem keeps_unpaused (resumable : IsResumable asm) {actionStatus : Option ActionStatus}
    (active : next.isActive = asm.isActive)
    (definition : next.actionDefinition = asm.actionDefinition)
    (shouldPause : next.shouldPause = asm.shouldPause)
    (unpaused : actionStatus ≠ some .paused) :
    asm.KeepsResumable (.transitions next actionStatus) :=
  ⟨⟨active.trans resumable.active, definition ▸ resumable.defined,
    fun paused => absurd paused unpaused⟩, shouldPause, fun paused => absurd paused unpaused⟩

theorem timed_next (resumable : IsResumable asm) {actionStatus : ActionStatus}
    {timed : TimedTransition} (entered : asm.timedTransition actionStatus = some (some timed)) :
    timed.next ≠ .paused := by
  obtain ⟨-, -, initializing, running⟩ :=
    not_paused_of_mem_actionDefinitions _ resumable.defined
  cases actionStatus with
  | initializing =>
      simp only [ActionStateMachine.timedTransition, Option.map_eq_some_iff,
        Option.some.injEq] at entered
      obtain ⟨_, known, rfl⟩ := entered
      exact initializing _ known
  | running =>
      simp only [ActionStateMachine.timedTransition, Option.map_eq_some_iff,
        Option.some.injEq] at entered
      obtain ⟨_, known, rfl⟩ := entered
      exact running _ known
  | failed | finished | paused | waiting =>
      simp [ActionStateMachine.timedTransition] at entered

theorem passTime (math : MathLibrary) (resumable : IsResumable asm) {actionStatus : ActionStatus}
    (requested : asm.actionStatus = some .paused → asm.shouldPause = true) (realInterval : Rat) :
    asm.KeepsResumable (asm.passTime math actionStatus realInterval) := by
  unfold ActionStateMachine.passTime
  cases entered : asm.timedTransition actionStatus with
  | none => exact requested
  | some transition =>
      cases transition with
      | none => exact ⟨resumable.of_same rfl rfl rfl rfl, rfl, requested⟩
      | some timed =>
          have unpaused := resumable.timed_next entered
          dsimp only
          split
          · exact resumable.keeps_unpaused rfl rfl rfl (by simpa using unpaused)
          · exact ⟨resumable.of_same rfl rfl rfl rfl, rfl, requested⟩

/-- A machine that is paused remembers the status it has been in. -/
theorem tick (math : MathLibrary) (resumable : IsResumable asm) (realInterval : Rat) :
    asm.KeepsResumable (asm.tick math realInterval) := by
  obtain ⟨onInit, onTerminate, -, -⟩ :=
    not_paused_of_mem_actionDefinitions _ resumable.defined
  unfold ActionStateMachine.tick
  dsimp only
  split
  · next inactive =>
    rw [resumable.active] at inactive
    cases inactive
  split
  · next pausing =>
    rw [Bool.and_eq_true, decide_eq_true_eq] at pausing
    refine ⟨⟨resumable.active, resumable.defined, fun _ => ⟨_, rfl, ?_⟩⟩, rfl, fun _ => pausing.1⟩
    cases current : asm.actionStatus with
    | none => exact onInit
    | some actionStatus =>
        rintro rfl
        exact pausing.2 current
  split
  · next resuming =>
    rw [Bool.and_eq_true, decide_eq_true_eq] at resuming
    obtain ⟨actionStatus, known, unpaused⟩ := resumable.resumes resuming.2
    exact resumable.keeps_unpaused rfl rfl rfl (by simpa [known] using unpaused)
  · next unresumed =>
    have requested : asm.actionStatus = some .paused → asm.shouldPause = true := by
      intro paused
      simpa [paused] using unresumed
    cases current : asm.actionStatus with
    | none => exact resumable.keeps_unpaused rfl rfl rfl (by simpa using onInit)
    | some actionStatus =>
        dsimp only
        split
        · exact resumable.keeps_unpaused rfl rfl rfl (by simp)
        split
        · cases terminated : asm.actionDefinition.transitions.onTerminate with
          | none => exact requested
          | some next =>
              refine resumable.keeps_unpaused rfl rfl rfl ?_
              intro same
              exact onTerminate (terminated.trans same)
        split
        · exact ⟨resumable, rfl, requested⟩
        · exact resumable.passTime math requested realInterval

theorem terminate (resumable : IsResumable asm) : IsResumable asm.terminate := by
  have active := resumable.active
  unfold ActionStateMachine.terminate
  split
  · exact resumable
  · refine resumable.of_same ?_ rfl rfl rfl
    simp_all [ActionStateMachine.isActive]

theorem cancel (resumable : IsResumable asm) : IsResumable asm.cancel := by
  have active := resumable.active
  unfold ActionStateMachine.cancel
  split
  · exact resumable
  · refine resumable.of_same ?_ rfl rfl rfl
    simp_all [ActionStateMachine.isActive]

/-- A machine that is not requested to pause is not paused after its next tick. -/
private theorem statusAfterTick (math : MathLibrary) (resumable : IsResumable asm)
    (unrequested : asm.shouldPause = false) (realInterval : Rat) :
    asm.statusAfterTick math realInterval ≠ some .paused := by
  have kept := resumable.tick math realInterval
  unfold ActionStateMachine.statusAfterTick
  intro paused
  have requested : asm.shouldPause = true := by
    cases ticked : asm.tick math realInterval with
    | stays next =>
        rw [ticked] at kept paused
        exact kept.2.2 paused
    | transitions next actionStatus =>
        rw [ticked] at kept paused
        exact kept.2.2 paused
    | typeError =>
        rw [ticked] at kept paused
        exact kept paused
  rw [unrequested] at requested
  cases requested

end IsResumable

@[simp] theorem ActionStateMachine.shouldPause_terminate (asm : ActionStateMachine) :
    asm.terminate.shouldPause = asm.shouldPause := by
  unfold terminate
  split <;> rfl

@[simp] theorem ActionStateMachine.shouldPause_cancel (asm : ActionStateMachine) :
    asm.cancel.shouldPause = asm.shouldPause := by
  unfold cancel
  split <;> rfl

/-! ## Pausing while the vehicle is paused only -/

/-- Machines are requested to pause only while the vehicle is paused. -/
structure PauseAgrees (adapter : VirtualAgvAdapter) : Prop where
  resumable : ∀ asm ∈ adapter.actionStateMachines, IsResumable asm
  requested : adapter.vehicleState.isPaused = false →
    ∀ asm ∈ adapter.actionStateMachines, asm.shouldPause = false

/-- An edge traversal is not stopped while machines are requested to pause. -/
def StopsUnpaused (adapter : VirtualAgvAdapter) : AdapterEvent → Prop
  | .stopTraverse _ => ∀ asm ∈ adapter.actionStateMachines, asm.shouldPause = false
  | _ => True

instance (adapter : VirtualAgvAdapter) (event : AdapterEvent) :
    Decidable (StopsUnpaused adapter event) :=
  match event with
  | .stopTraverse _ =>
      inferInstanceAs (Decidable (∀ asm ∈ adapter.actionStateMachines, asm.shouldPause = false))
  | .executeAction _ | .finishEdgeAction _ | .cancelAction _ | .traverseEdge _
  | .proceed _ | .onTick _ => isTrue trivial

namespace PauseAgrees

variable {before after adapter : VirtualAgvAdapter} {asm next : ActionStateMachine}

theorem quiet (agrees : PauseAgrees before) (quiet : Quiet before after) : PauseAgrees after where
  resumable := quiet.machines ▸ agrees.resumable
  requested := by
    rw [quiet.machines, quiet.isPaused]
    exact agrees.requested

theorem advanceMachine (agrees : PauseAgrees adapter) (member : asm ∈ adapter.actionStateMachines)
    (resumable : IsResumable next) (same : next.shouldPause = asm.shouldPause) :
    PauseAgrees (adapter.advanceMachine next) where
  resumable := by
    intro other otherMember
    obtain ⟨earlier, earlierMember, rfl⟩ := List.mem_map.mp otherMember
    split
    · exact resumable
    · exact agrees.resumable earlier earlierMember
  requested := by
    intro unpaused other otherMember
    obtain ⟨earlier, earlierMember, rfl⟩ := List.mem_map.mp otherMember
    split
    · rw [same]
      exact agrees.requested unpaused asm member
    · exact agrees.requested unpaused earlier earlierMember

theorem accept (agrees : PauseAgrees adapter) {context : ActionContext}
    {definition : VirtualActionDefinition} (defined : definition ∈ actionDefinitions) :
    PauseAgrees (adapter.accept context definition) := by
  have standing : Quiet adapter
      (if context.stopDriving = some true then adapter.standStill else adapter) :=
    Quiet.refl.standStillIf _
  unfold VirtualAgvAdapter.accept
  generalize (if context.stopDriving = some true then adapter.standStill else adapter) = stood
    at standing
  have stoodAgrees := agrees.quiet standing
  constructor
  · intro other member
    cases List.mem_append.mp member with
    | inl earlier => exact stoodAgrees.resumable other earlier
    | inr new =>
        rw [List.mem_singleton.mp new]
        exact ⟨rfl, defined, fun paused => by cases paused⟩
  · intro unpaused other member
    cases List.mem_append.mp member with
    | inl earlier => exact stoodAgrees.requested unpaused other earlier
    | inr new =>
        have running : stood.vehicleState.isPaused = false := unpaused
        rw [List.mem_singleton.mp new]
        simp [newMachine, running]

theorem reach (agrees : PauseAgrees adapter) (member : asm ∈ adapter.actionStateMachines)
    {actionStatus : ActionStatus} (same : next.shouldPause = asm.shouldPause)
    (resumable : IsResumable { next with actionStatus := some actionStatus }) :
    PauseAgrees (adapter.reach next actionStatus) := by
  unfold VirtualAgvAdapter.reach
  dsimp only
  split
  · constructor
    · intro other otherMember
      exact agrees.resumable other (List.mem_of_mem_filter otherMember)
    · intro unpaused other otherMember
      exact agrees.requested unpaused other (List.mem_of_mem_filter otherMember)
  · have observed : PauseAgrees (adapter.observe (.reaches next.ref next.actionContext actionStatus
        adapter.vehicleState.currentLoad)) := ⟨agrees.resumable, agrees.requested⟩
    exact observed.advanceMachine member resumable same

/-- `_startPause` requests machines to pause, and pauses the vehicle. -/
theorem startPause (agrees : PauseAgrees adapter) (ref : Nat) :
    PauseAgrees (adapter.startPause ref).1 := by
  unfold VirtualAgvAdapter.startPause
  split
  · exact agrees
  · have standing := agrees.quiet Quiet.refl.standStill
    constructor
    · intro other member
      obtain ⟨earlier, earlierMember, rfl⟩ := List.mem_map.mp member
      have resumable := standing.resumable earlier earlierMember
      split
      · exact resumable.of_same rfl rfl rfl rfl
      · exact resumable
    · intro unpaused
      cases unpaused

/-- `_stopPause` of an action that has ended resumes all machines. -/
theorem stopPause (agrees : PauseAgrees adapter) {ref : Nat}
    (others : ∀ asm ∈ adapter.actionStateMachines, asm.ref ≠ ref) :
    PauseAgrees (adapter.stopPause ref).1 := by
  unfold VirtualAgvAdapter.stopPause
  split
  · exact agrees
  · constructor
    · intro other member
      obtain ⟨earlier, earlierMember, rfl⟩ := List.mem_map.mp member
      have resumable := agrees.resumable earlier earlierMember
      split
      · exact resumable.of_same rfl rfl rfl rfl
      · exact resumable
    · intro _ other member
      obtain ⟨earlier, earlierMember, rfl⟩ := List.mem_map.mp member
      rw [if_pos (others earlier earlierMember)]
      rfl

/-- `_stopPause` without an action resumes no machine. -/
theorem stopPauseState (agrees : PauseAgrees adapter)
    (unrequested : ∀ asm ∈ adapter.actionStateMachines, asm.shouldPause = false) :
    PauseAgrees adapter.stopPauseState := by
  unfold VirtualAgvAdapter.stopPauseState
  split
  · exact agrees
  · exact ⟨agrees.resumable, fun _ => unrequested⟩

theorem finishedEffect (agrees : PauseAgrees before) {inputs : TickInputs}
    {linkedState : LinkedState}
    (others : ∀ other ∈ before.actionStateMachines, other.ref ≠ asm.ref)
    (affected : before.finishedEffect inputs asm = some (after, linkedState)) :
    PauseAgrees after := by
  unfold VirtualAgvAdapter.finishedEffect at affected
  cases effect : asm.actionDefinition.transitions.finishedEffect <;>
    simp only [effect, Option.some.injEq] at affected
  case initPosition => exact agrees.quiet (Quiet.initPosition affected)
  all_goals
    have result := congrArg Prod.fst affected
    dsimp only at result
    rw [← result]
  case none => exact agrees
  case loadAdded => exact ⟨agrees.resumable, agrees.requested⟩
  case loadRemoved => exact ⟨agrees.resumable, agrees.requested⟩
  case startPause => exact agrees.startPause _
  case stopPause => exact agrees.stopPause others
  case startCharging => exact agrees.quiet Quiet.refl.startCharging
  case stopCharging => exact agrees.quiet Quiet.refl.stopCharging

theorem transition (agrees : PauseAgrees adapter) (inputs : TickInputs)
    (member : asm ∈ adapter.actionStateMachines) {actionStatus : ActionStatus}
    (same : next.shouldPause = asm.shouldPause)
    (resumable : IsResumable { next with actionStatus := some actionStatus }) :
    PauseAgrees (adapter.transition inputs next actionStatus).1 := by
  have reached := agrees.reach member same resumable
  unfold VirtualAgvAdapter.transition
  cases actionStatus with
  | finished =>
      dsimp only
      cases affected : (adapter.reach next .finished).finishedEffect inputs next with
      | none => exact reached
      | some result =>
          have others : ∀ other ∈ (adapter.reach next .finished).actionStateMachines,
              other.ref ≠ next.ref := by
            intro other otherMember
            simpa using (List.mem_filter.mp otherMember).2
          exact (reached.finishedEffect others affected).quiet (Quiet.refl.call _)
  | failed | initializing | paused | running | waiting =>
      exact reached.quiet (Quiet.refl.call _)

theorem tickMachine (math : MathLibrary) (agrees : PauseAgrees adapter) (inputs : TickInputs)
    (realInterval : Rat) (member : asm ∈ adapter.actionStateMachines) :
    PauseAgrees (adapter.tickMachine math inputs realInterval asm).1 := by
  have kept := (agrees.resumable asm member).tick math realInterval
  unfold VirtualAgvAdapter.tickMachine
  cases ticked : asm.tick math realInterval with
  | stays next =>
      rw [ticked] at kept
      exact agrees.advanceMachine member kept.1 kept.2.1
  | typeError => exact agrees
  | transitions next actionStatus =>
      rw [ticked] at kept
      cases actionStatus with
      | none => exact (agrees.advanceMachine member kept.1 kept.2.1).quiet (Quiet.refl.call _)
      | some actionStatus => exact agrees.transition inputs member kept.2.1 kept.1

end PauseAgrees

variable {math : MathLibrary} {options : VirtualAgvAdapterOptions} {adapter : VirtualAgvAdapter}

theorem getActionDefinition_mem {action : Action} {scope : ActionScope}
    {definition : VirtualActionDefinition}
    (defined : getActionDefinition action scope = some definition) :
    definition ∈ actionDefinitions :=
  List.mem_of_find?_eq_some defined

private theorem pauseAgrees_of_run {events : List AdapterEvent}
    (run : AdapterRun math options StopsUnpaused events adapter) : PauseAgrees adapter := by
  refine Library.Run.invariant PauseAgrees ?_ ?_ run
  · constructor
    · intro asm member
      cases member
    · intro _ asm member
      cases member
  · intro events state event next _ agrees permitted stepped
    obtain ⟨changed, change, quiet⟩ := step_change stepped
    refine PauseAgrees.quiet ?_ quiet
    cases change with
    | nothing => exact agrees
    | accepts defined executable => exact agrees.accept (getActionDefinition_mem defined)
    | terminates member =>
        exact agrees.advanceMachine member (agrees.resumable _ member).terminate
          (ActionStateMachine.shouldPause_terminate _)
    | cancels member =>
        exact agrees.advanceMachine member (agrees.resumable _ member).cancel
          (ActionStateMachine.shouldPause_cancel _)
    | unpauses =>
        have standing : Quiet state { state with traverseContext := none }.standStill :=
          Quiet.standStill ⟨rfl, rfl, rfl, rfl, rfl, id⟩
        apply (agrees.quiet standing).stopPauseState
        rw [standing.machines]
        exact permitted
    | drives vx vy ticking phase ready => exact ⟨agrees.resumable, agrees.requested⟩
    | ticks ticking phase found =>
        exact agrees.tickMachine math _ _ (List.mem_of_getElem? found)

/-- No action stays paused while the vehicle is not paused, in runs that stop
edge traversals only while no machine is requested to pause. -/
theorem resumes_of_not_isPaused {events : List AdapterEvent}
    (run : AdapterRun math options StopsUnpaused events adapter)
    (unpaused : adapter.vehicleState.isPaused = false) :
    ∀ asm ∈ adapter.actionStateMachines, asm.shouldPause = false ∧
      ∀ realInterval, asm.statusAfterTick math realInterval ≠ some .paused := by
  have agrees := pauseAgrees_of_run run
  intro asm member
  have unrequested := agrees.requested unpaused asm member
  exact ⟨unrequested, (agrees.resumable asm member).statusAfterTick math unrequested⟩

/-! ## A stopped edge traversal -/

def instantAction (actionId actionType : String) : ActionContext where
  action := { actionId, actionType, blockingType := .none }
  scope := .instant

/-- An action is started and paused. -/
def pausedEvents : List AdapterEvent :=
  .executeAction (instantAction "work" "noop") :: wholeTick 1 ++
    .executeAction (instantAction "pause" "startPause") :: wholeTick 2 ++ wholeTick 1

/-- The vehicle is resumed by an action. -/
def resumedEvents : List AdapterEvent :=
  pausedEvents ++ .executeAction (instantAction "resume" "stopPause") :: wholeTick 2

theorem resumes_of_stopPause :
    ∃ adapter, AdapterRun axisMath {} StopsUnpaused resumedEvents adapter ∧
      adapter.vehicleState.isPaused = false ∧ adapter.actionStateMachines ≠ [] ∧
      ∀ asm ∈ adapter.actionStateMachines, asm.shouldPause = false ∧
        ∀ realInterval, asm.statusAfterTick axisMath realInterval ≠ some .paused := by
  obtain ⟨adapter, run, passed⟩ := AdapterRun.exists_of_execute axisMath {} StopsUnpaused
    resumedEvents
    (fun adapter => decide (adapter.vehicleState.isPaused = false) &&
      decide (adapter.actionStateMachines ≠ [])) (by decide +kernel)
  rw [Bool.and_eq_true, decide_eq_true_eq, decide_eq_true_eq] at passed
  exact ⟨adapter, run, passed.1, passed.2, resumes_of_not_isPaused run passed.1⟩

/-- The machine stays paused, and `stopPause` is refused. -/
theorem stays_paused_of_stopTraverse :
    ∃ adapter,
      AdapterRun axisMath {} (fun _ _ => True)
        (pausedEvents ++ [.stopTraverse { cancelOrderContext := none }]) adapter ∧
      adapter.ongoingTick = none ∧ adapter.vehicleState.isPaused = false ∧
      (∃ asm ∈ adapter.actionStateMachines, asm.shouldPause = true ∧
        asm.statusAfterTick axisMath (1 / 5) = some .paused) ∧
      adapter.canExecute (instantAction "resume" "stopPause") (some .paused) = false := by
  obtain ⟨adapter, run, passed⟩ := AdapterRun.exists_of_execute axisMath {} (fun _ _ => True)
    (pausedEvents ++ [.stopTraverse { cancelOrderContext := none }])
    (fun adapter => decide (adapter.ongoingTick = none) &&
      decide (adapter.vehicleState.isPaused = false) &&
      adapter.actionStateMachines.any fun asm => asm.shouldPause &&
        decide (asm.statusAfterTick axisMath (1 / 5) = some .paused)) (by decide +kernel)
  simp only [Bool.and_eq_true, decide_eq_true_eq, List.any_eq_true] at passed
  obtain ⟨⟨between, unpaused⟩, paused⟩ := passed
  exact ⟨adapter, run, between, unpaused, paused, unpaused⟩

end VirtualAgvAdapter

end Vda5050
