import Vda5050.VirtualAgvAdapter.StandingActions

/-!
# Runs of action state machines

A single machine, from its creation on, under any calls of its methods. The
entries of its definition that a tick looks up are present unless an edge
action is terminated whose definition has no `ON_TERMINATE`.
-/

set_option autoImplicit false

namespace Vda5050

namespace VirtualAgvAdapter

/-! ## Machines and the calls of their methods -/

namespace ActionStateMachine

/-- The constructor. -/
def create (ref : Nat) (actionContext : ActionContext)
    (actionDefinition : VirtualActionDefinition) (shouldPause : Bool) : ActionStateMachine :=
  { ref, actionContext, actionDefinition, shouldPause }

/-- `_transition`, as far as the machine itself is concerned. -/
def transition (asm : ActionStateMachine) (actionStatus : Option ActionStatus) :
    ActionStateMachine :=
  if actionStatus.any (·.isEnded) then
    { asm with actionStatus, shouldTerminate := none, shouldCancel := none, shouldPause := false }
  else { asm with actionStatus }

section
variable (asm : ActionStateMachine) (actionStatus : Option ActionStatus)

@[simp] theorem actionStatus_transition :
    (asm.transition actionStatus).actionStatus = actionStatus := by
  unfold transition
  split <;> rfl

@[simp] theorem actionDefinition_transition :
    (asm.transition actionStatus).actionDefinition = asm.actionDefinition := by
  unfold transition
  split <;> rfl

@[simp] theorem actionContext_transition :
    (asm.transition actionStatus).actionContext = asm.actionContext := by
  unfold transition
  split <;> rfl

@[simp] theorem statusDurationTimes_transition :
    (asm.transition actionStatus).statusDurationTimes = asm.statusDurationTimes := by
  unfold transition
  split <;> rfl

@[simp] theorem actionStatusOnPause_transition :
    (asm.transition actionStatus).actionStatusOnPause = asm.actionStatusOnPause := by
  unfold transition
  split <;> rfl

end

end ActionStateMachine

/-- The methods of a machine. -/
inductive MachineCall where
  | tick (realInterval : Rat)
  | terminate
  | cancel
  | pause
  | unpause
  deriving DecidableEq, Repr

/-- A tick of a machine, with the machine before it and the status it reports, if
any. A status that is reported may be undefined. -/
structure TickRecord where
  before : ActionStateMachine
  realInterval : Rat
  reported : Option (Option ActionStatus)
  deriving DecidableEq, Repr

/-- A machine, with the record of its ticks. -/
structure ObservedMachine where
  machine : ActionStateMachine
  ticks : List TickRecord := []
  deriving DecidableEq, Repr

namespace ObservedMachine

variable (math : MathLibrary) (observed : ObservedMachine)

/-- Invoke a method, which fails only if a tick throws a type error. -/
def invoke : MachineCall → Option ObservedMachine
  | .tick realInterval =>
      let record (reported : Option (Option ActionStatus)) : TickRecord :=
        { before := observed.machine, realInterval, reported }
      match observed.machine.tick math realInterval with
      | .stays next => some { machine := next, ticks := observed.ticks ++ [record none] }
      | .transitions next actionStatus =>
          some
            { machine := next.transition actionStatus
              ticks := observed.ticks ++ [record (some actionStatus)] }
      | .typeError => none
  | .terminate => some { observed with machine := observed.machine.terminate }
  | .cancel => some { observed with machine := observed.machine.cancel }
  | .pause => some { observed with machine := observed.machine.pause }
  | .unpause => some { observed with machine := observed.machine.unpause }

end ObservedMachine

/-- Runs of a machine, from its creation. -/
abbrev MachineRun (math : MathLibrary) (init : ActionStateMachine) :
    List MachineCall → ObservedMachine → Prop :=
  Library.Run (ObservedMachine.invoke math) (fun _ _ => True) { machine := init }

/-- Calling methods by the step function yields a run. -/
theorem MachineRun.exists_of_execute (math : MathLibrary) (init : ActionStateMachine)
    (calls : List MachineCall) (check : ObservedMachine → Bool)
    (passed : (Library.execute (ObservedMachine.invoke math) (fun _ _ => True)
      { machine := init } calls).any check = true) :
    ∃ observed, MachineRun math init calls observed ∧ check observed = true :=
  Library.exists_run_of_execute passed

/-! ## Branches of a tick -/

namespace ActionStateMachine

variable (asm : ActionStateMachine)

/-- A tick gets past the transitions to and from `PAUSED`, and past the initial one. -/
def advances : Bool :=
  asm.isActive && asm.actionStatus.isSome &&
    asm.shouldPause = decide (asm.actionStatus = some .paused)

/-- A tick carries out the cancelation, provided that the action can be canceled. -/
def cancels : Bool := asm.advances && asm.shouldCancel = some true

/-- A tick carries out the termination. -/
def terminates : Bool :=
  asm.advances && !(asm.shouldCancel = some true && asm.actionDefinition.transitions.onCancel) &&
    asm.shouldTerminate = some true

/-- A tick evaluates the time spent in the given status. -/
def evaluates (actionStatus : ActionStatus) : Bool :=
  asm.advances && !(asm.shouldCancel = some true && asm.actionDefinition.transitions.onCancel) &&
    asm.shouldTerminate ≠ some true && asm.actionStatus = some actionStatus &&
      actionStatus ≠ .paused

/-- The entries of the definition that a tick relies on are present. -/
structure FindsEntries : Prop where
  onTerminate : asm.terminates = true →
    asm.actionDefinition.transitions.onTerminate.isSome = true
  onCancel : asm.cancels = true → asm.actionDefinition.transitions.onCancel = true
  timed : ∀ actionStatus, asm.evaluates actionStatus = true →
    ∃ timed, asm.timedTransition actionStatus = some (some timed)

/-- What a tick leads to, by the branch it takes. -/
inductive Ticks (math : MathLibrary) (realInterval : Rat) : TickOutcome → Prop where
  | inactive : asm.isActive = false → Ticks math realInterval (.stays asm)
  | pauses : asm.isActive = true → asm.shouldPause = true → asm.actionStatus ≠ some .paused →
      Ticks math realInterval
        (.transitions
          { asm with
            actionStatusOnPause :=
              some (asm.actionStatus.getD asm.actionDefinition.transitions.onInit) }
          (some .paused))
  | resumes : asm.isActive = true → asm.shouldPause = false → asm.actionStatus = some .paused →
      Ticks math realInterval
        (.transitions { asm with actionStatusOnPause := none } asm.actionStatusOnPause)
  | begins : asm.isActive = true → asm.shouldPause = false → asm.actionStatus = none →
      Ticks math realInterval
        (.transitions asm (some asm.actionDefinition.transitions.onInit))
  | cancels : asm.cancels = true → asm.actionDefinition.transitions.onCancel = true →
      Ticks math realInterval (.transitions asm (some .failed))
  | terminates (next : ActionStatus) : asm.terminates = true →
      asm.actionDefinition.transitions.onTerminate = some next →
      Ticks math realInterval (.transitions asm (some next))
  | unterminated : asm.terminates = true →
      asm.actionDefinition.transitions.onTerminate = none → Ticks math realInterval .typeError
  | rests : asm.advances = true → asm.actionStatus = some .paused →
      Ticks math realInterval (.stays asm)
  | evaluates (actionStatus : ActionStatus) : asm.evaluates actionStatus = true →
      Ticks math realInterval (asm.passTime math actionStatus realInterval)

/-- Every tick takes one of the branches. -/
theorem ticks (math : MathLibrary) (realInterval : Rat) :
    asm.Ticks math realInterval (asm.tick math realInterval) := by
  unfold tick
  dsimp only
  split
  · next inactive => exact .inactive (by simpa using inactive)
  next active =>
  rw [Bool.not_eq_true, Bool.not_eq_false'] at active
  split
  · next pausing =>
    rw [Bool.and_eq_true, decide_eq_true_eq] at pausing
    exact .pauses active pausing.1 pausing.2
  next unpaused =>
  split
  · next resuming =>
    rw [Bool.and_eq_true, Bool.not_eq_true', decide_eq_true_eq] at resuming
    exact .resumes active resuming.1 resuming.2
  next unresumed =>
  cases current : asm.actionStatus with
  | none => exact .begins active (by simpa [current] using unpaused) current
  | some actionStatus =>
      have advances : asm.advances = true := by
        cases requested : asm.shouldPause <;>
          simp_all [ActionStateMachine.advances]
      dsimp only
      split
      · next canceled =>
        rw [Bool.and_eq_true] at canceled
        exact .cancels (by rw [ActionStateMachine.cancels, advances, canceled.1]; rfl) canceled.2
      next uncanceled =>
      rw [Bool.not_eq_true] at uncanceled
      split
      · next terminated =>
        have terminates : asm.terminates = true := by
          simp [ActionStateMachine.terminates, advances, uncanceled, terminated]
        cases entry : asm.actionDefinition.transitions.onTerminate with
        | none => exact .unterminated terminates entry
        | some next => exact .terminates next terminates entry
      next unterminated =>
      split
      · next paused => exact .rests advances (by rw [current, paused])
      · next unpaused =>
        refine .evaluates actionStatus ?_
        simp [ActionStateMachine.evaluates, advances, uncanceled, unterminated, current, unpaused]

end ActionStateMachine

/-! ## Definitions whose statuses have entries -/

namespace VirtualActionDefinition

/-- The entry of a status that is left after some time. -/
def timed (definition : VirtualActionDefinition) : ActionStatus → Option TimedTransition
  | .initializing => definition.transitions.initializing
  | .running => definition.transitions.running
  | .failed | .finished | .paused | .waiting => none

/-- The status ends the action or is left after some time. -/
def hasEntry (definition : VirtualActionDefinition) (actionStatus : ActionStatus) : Bool :=
  actionStatus.isEnded || (definition.timed actionStatus).isSome

/-- The statuses entered by a definition have entries. The one entered on
termination, if any, ends the action. -/
structure HasEntries (definition : VirtualActionDefinition) : Prop where
  onInit : definition.hasEntry definition.transitions.onInit = true
  onTerminate : ∀ next ∈ definition.transitions.onTerminate, next.isEnded = true
  initializing : ∀ timed ∈ definition.transitions.initializing,
    definition.hasEntry timed.next = true
  running : ∀ timed ∈ definition.transitions.running, definition.hasEntry timed.next = true

theorem HasEntries.next {definition : VirtualActionDefinition} (entries : definition.HasEntries)
    {actionStatus : ActionStatus} {timed : TimedTransition}
    (entered : definition.timed actionStatus = some timed) :
    definition.hasEntry timed.next = true := by
  cases actionStatus with
  | initializing => exact entries.initializing timed entered
  | running => exact entries.running timed entered
  | failed | finished | paused | waiting => cases entered

theorem hasEntry_ne_paused {definition : VirtualActionDefinition} {actionStatus : ActionStatus}
    (entry : definition.hasEntry actionStatus = true) : actionStatus ≠ .paused := by
  rintro rfl
  cases entry

private theorem timed_of_hasEntry {definition : VirtualActionDefinition}
    {actionStatus : ActionStatus}
    (entry : definition.hasEntry actionStatus = true) (lasts : actionStatus.isEnded = false) :
    ∃ timed, definition.timed actionStatus = some timed := by
  rw [hasEntry, lasts, Bool.false_or] at entry
  exact Option.isSome_iff_exists.mp entry

end VirtualActionDefinition

/-- The definitions of the virtual AGV have all entries but those for termination. -/
private theorem hasEntries_of_mem_actionDefinitions {definition : VirtualActionDefinition}
    (defined : definition ∈ actionDefinitions) :
    definition.HasEntries ∧ definition.transitions.onTerminate = none := by
  have checked : ∀ definition ∈ actionDefinitions,
      definition.hasEntry definition.transitions.onInit = true ∧
        (∀ timed ∈ definition.transitions.initializing, definition.hasEntry timed.next = true) ∧
        (∀ timed ∈ definition.transitions.running, definition.hasEntry timed.next = true) ∧
        definition.transitions.onTerminate = none := by
    decide
  obtain ⟨onInit, initializing, running, unterminated⟩ := checked definition defined
  refine ⟨⟨onInit, fun next entered => ?_, initializing, running⟩, unterminated⟩
  rw [unterminated] at entered
  cases entered

/-! ## Machines in statuses that have entries -/

/-- A machine that has not ended is in a status that is left after some time, or is
paused and remembers a status that has an entry. Only those requests are made that
the action admits. -/
structure IsSound (asm : ActionStateMachine) : Prop where
  entries : asm.actionDefinition.HasEntries
  lasts : ∀ actionStatus, asm.isActive = true → asm.actionStatus = some actionStatus →
    actionStatus = .paused ∨ (asm.actionDefinition.timed actionStatus).isSome = true
  resumes : asm.actionStatus = some .paused → ∃ actionStatus,
    asm.actionStatusOnPause = some actionStatus ∧
      asm.actionDefinition.hasEntry actionStatus = true
  cancels : asm.shouldCancel = some true → asm.actionDefinition.transitions.onCancel = true
  terminates : asm.shouldTerminate = some true → scopeKind asm.actionContext.scope = .edge

namespace ActionStateMachine

variable {asm : ActionStateMachine}

/-- The time spent in a status so far. -/
def timeIn (asm : ActionStateMachine) (actionStatus : ActionStatus) : Rat :=
  (asm.statusDurationTimes.lookup actionStatus).getD 0

def setTime (asm : ActionStateMachine) (actionStatus : ActionStatus) (time : Rat) :
    ActionStateMachine :=
  { asm with statusDurationTimes := setEntry actionStatus time asm.statusDurationTimes }

private theorem timedTransition_of_timed {actionStatus : ActionStatus} {timed : TimedTransition}
    (entered : asm.actionDefinition.timed actionStatus = some timed) :
    asm.timedTransition actionStatus = some (some timed) := by
  cases actionStatus with
  | initializing | running =>
      rw [VirtualActionDefinition.timed] at entered
      simp [timedTransition, entered]
  | failed | finished | paused | waiting => cases entered

/-- Time passes in a status that is left after some time. -/
private theorem passTime_timed (math : MathLibrary) {actionStatus : ActionStatus}
    {timed : TimedTransition} (entered : asm.actionDefinition.timed actionStatus = some timed)
    (realInterval : Rat) :
    asm.passTime math actionStatus realInterval =
      if isElapsed math (asm.timeIn actionStatus + realInterval)
          (getTransitionDuration timed asm.actionContext.action) then
        .transitions (asm.setTime actionStatus 0) (some timed.next)
      else .stays (asm.setTime actionStatus (asm.timeIn actionStatus + realInterval)) := by
  simp only [passTime, timedTransition_of_timed entered]
  rfl

theorem terminate_cases (asm : ActionStateMachine) :
    asm.terminate = asm ∨
      asm.shouldTerminate = some false ∧ scopeKind asm.actionContext.scope = .edge ∧
        asm.terminate = { asm with shouldTerminate := some true } := by
  unfold terminate
  split
  · exact .inl rfl
  · next requested =>
    rw [Bool.or_eq_true, not_or, decide_eq_true_eq, decide_eq_true_eq, not_not, not_not]
      at requested
    exact .inr ⟨requested.2, requested.1, rfl⟩

theorem cancel_cases (asm : ActionStateMachine) :
    asm.cancel = asm ∨
      asm.shouldCancel = some false ∧ asm.actionDefinition.transitions.onCancel = true ∧
        asm.cancel = { asm with shouldCancel := some true } := by
  unfold cancel
  split
  · exact .inl rfl
  · next requested =>
    simp only [Bool.or_eq_true, decide_eq_true_eq, Bool.not_eq_true', not_or, Bool.not_eq_false,
      not_not] at requested
    exact .inr ⟨requested.1.2, requested.2, rfl⟩

theorem isActive_of_advances (advances : asm.advances = true) : asm.isActive = true := by
  rw [ActionStateMachine.advances, Bool.and_eq_true, Bool.and_eq_true] at advances
  exact advances.1.1

theorem advances_of_evaluates {actionStatus : ActionStatus}
    (evaluated : asm.evaluates actionStatus = true) :
    asm.advances = true ∧ asm.actionStatus = some actionStatus ∧ actionStatus ≠ .paused ∧
      asm.shouldPause = false := by
  simp only [evaluates, Bool.and_eq_true, decide_eq_true_eq] at evaluated
  obtain ⟨⟨⟨⟨advances, -⟩, -⟩, current⟩, unpaused⟩ := evaluated
  refine ⟨advances, current, unpaused, ?_⟩
  simp only [ActionStateMachine.advances, Bool.and_eq_true, decide_eq_true_eq, current,
    Option.some.injEq] at advances
  simpa [unpaused] using advances.2

end ActionStateMachine

namespace IsSound

variable {asm next : ActionStateMachine}

theorem create {ref : Nat} {context : ActionContext} {definition : VirtualActionDefinition}
    {shouldPause : Bool} (entries : definition.HasEntries) :
    IsSound (.create ref context definition shouldPause) where
  entries := entries
  lasts := nofun
  resumes := nofun
  cancels := nofun
  terminates := nofun

/-- Only what a machine does with its status matters. -/
theorem of_same (sound : IsSound asm) (active : next.isActive = asm.isActive)
    (definition : next.actionDefinition = asm.actionDefinition)
    (actionStatus : next.actionStatus = asm.actionStatus)
    (onPause : next.actionStatusOnPause = asm.actionStatusOnPause)
    (cancels : next.shouldCancel = some true → asm.actionDefinition.transitions.onCancel = true)
    (terminates : next.shouldTerminate = some true →
      scopeKind next.actionContext.scope = .edge) : IsSound next where
  entries := definition ▸ sound.entries
  lasts := by
    rw [active, definition, actionStatus]
    exact sound.lasts
  resumes := by
    rw [definition, actionStatus, onPause]
    exact sound.resumes
  cancels := by
    rw [definition]
    exact cancels
  terminates := terminates

theorem terminate (sound : IsSound asm) : IsSound asm.terminate := by
  rcases asm.terminate_cases with same | ⟨unrequested, edge, same⟩ <;> rw [same]
  · exact sound
  · refine sound.of_same ?_ rfl rfl rfl sound.cancels fun _ => edge
    simp [ActionStateMachine.isActive, unrequested]

theorem cancel (sound : IsSound asm) : IsSound asm.cancel := by
  rcases asm.cancel_cases with same | ⟨unrequested, entry, same⟩ <;> rw [same]
  · exact sound
  · refine sound.of_same ?_ rfl rfl rfl (fun _ => entry) sound.terminates
    simp [ActionStateMachine.isActive, unrequested]

/-- The status evaluated by a tick is left after some time. -/
theorem evaluates (sound : IsSound asm) {actionStatus : ActionStatus}
    (evaluated : asm.evaluates actionStatus = true) :
    ∃ timed, asm.actionDefinition.timed actionStatus = some timed := by
  obtain ⟨advances, current, unpaused, -⟩ := ActionStateMachine.advances_of_evaluates evaluated
  rcases sound.lasts actionStatus (ActionStateMachine.isActive_of_advances advances) current with
    paused | timed
  · exact absurd paused unpaused
  · exact Option.isSome_iff_exists.mp timed

/-- A status other than `PAUSED` is entered. -/
theorem enters (sound : IsSound asm) {actionStatus : ActionStatus}
    (definition : next.actionDefinition = asm.actionDefinition)
    (context : next.actionContext = asm.actionContext)
    (shouldCancel : next.shouldCancel = asm.shouldCancel)
    (shouldTerminate : next.shouldTerminate = asm.shouldTerminate)
    (entry : asm.actionDefinition.hasEntry actionStatus = true) :
    IsSound (next.transition (some actionStatus)) := by
  have unpaused := VirtualActionDefinition.hasEntry_ne_paused entry
  unfold ActionStateMachine.transition
  split
  · exact
      { entries := definition ▸ sound.entries
        lasts := nofun
        resumes := fun paused => absurd (Option.some.inj paused) unpaused
        cancels := nofun
        terminates := nofun }
  · next lasts =>
    refine
      { entries := definition ▸ sound.entries
        lasts := fun other _ same => ?_
        resumes := fun paused => absurd (Option.some.inj paused) unpaused
        cancels := fun requested => ?_
        terminates := fun requested => ?_ }
    · obtain rfl := Option.some.inj same
      obtain ⟨timed, entered⟩ :=
        VirtualActionDefinition.timed_of_hasEntry entry (by simpa using lasts)
      exact .inr (by simp [definition, entered])
    · dsimp only at requested ⊢
      rw [definition]
      exact sound.cancels (shouldCancel ▸ requested)
    · dsimp only at requested ⊢
      rw [context]
      exact sound.terminates (shouldTerminate ▸ requested)

/-- `PAUSED` is entered, and the status to resume is remembered. -/
theorem pauses (sound : IsSound asm) {actionStatus : ActionStatus}
    (entry : asm.actionDefinition.hasEntry actionStatus = true) :
    IsSound
      (({ asm with actionStatusOnPause := some actionStatus }).transition (some .paused)) where
  entries := sound.entries
  lasts := fun _ _ same => .inl (Option.some.inj same).symm
  resumes := fun _ => ⟨actionStatus, rfl, entry⟩
  cancels := sound.cancels
  terminates := sound.terminates

/-- The status that is remembered when `PAUSED` is entered has an entry. -/
private theorem hasEntry_onPause (sound : IsSound asm) (active : asm.isActive = true)
    (unpaused : asm.actionStatus ≠ some .paused) :
    asm.actionDefinition.hasEntry
      (asm.actionStatus.getD asm.actionDefinition.transitions.onInit) = true := by
  cases current : asm.actionStatus with
  | none => exact sound.entries.onInit
  | some actionStatus =>
      rcases sound.lasts actionStatus active current with rfl | timed
      · exact absurd current unpaused
      · simp [VirtualActionDefinition.hasEntry, timed]

end IsSound

/-! ## Steps of sound machines -/

/-- What a tick that succeeds makes of a sound machine, and the status it reports. -/
inductive TickStep (math : MathLibrary) (realInterval : Rat) (asm : ActionStateMachine) :
    ActionStateMachine → Option ActionStatus → Prop where
  | inactive : asm.isActive = false → TickStep math realInterval asm asm none
  | pauses : asm.isActive = true → asm.shouldPause = true → asm.actionStatus ≠ some .paused →
      TickStep math realInterval asm
        (ActionStateMachine.transition
          { asm with
            actionStatusOnPause :=
              some (asm.actionStatus.getD asm.actionDefinition.transitions.onInit) }
          (some .paused))
        (some .paused)
  | resumes (actionStatus : ActionStatus) : asm.isActive = true → asm.shouldPause = false →
      asm.actionStatus = some .paused → asm.actionStatusOnPause = some actionStatus →
      asm.actionDefinition.hasEntry actionStatus = true →
      TickStep math realInterval asm
        (ActionStateMachine.transition { asm with actionStatusOnPause := none }
          (some actionStatus))
        (some actionStatus)
  | begins : asm.isActive = true → asm.shouldPause = false → asm.actionStatus = none →
      TickStep math realInterval asm
        (asm.transition (some asm.actionDefinition.transitions.onInit))
        (some asm.actionDefinition.transitions.onInit)
  | cancels : asm.cancels = true → asm.actionDefinition.transitions.onCancel = true →
      TickStep math realInterval asm (asm.transition (some .failed)) (some .failed)
  | terminates (next : ActionStatus) : asm.terminates = true →
      asm.actionDefinition.transitions.onTerminate = some next →
      TickStep math realInterval asm (asm.transition (some next)) (some next)
  | rests : asm.advances = true → asm.actionStatus = some .paused →
      TickStep math realInterval asm asm none
  | stays (actionStatus : ActionStatus) (timed : TimedTransition) :
      asm.evaluates actionStatus = true → asm.actionDefinition.timed actionStatus = some timed →
      isElapsed math (asm.timeIn actionStatus + realInterval)
        (getTransitionDuration timed asm.actionContext.action) = false →
      TickStep math realInterval asm
        (asm.setTime actionStatus (asm.timeIn actionStatus + realInterval)) none
  | leaves (actionStatus : ActionStatus) (timed : TimedTransition) :
      asm.evaluates actionStatus = true → asm.actionDefinition.timed actionStatus = some timed →
      isElapsed math (asm.timeIn actionStatus + realInterval)
        (getTransitionDuration timed asm.actionContext.action) = true →
      TickStep math realInterval asm
        ((asm.setTime actionStatus 0).transition (some timed.next)) (some timed.next)

namespace IsSound

variable {asm next : ActionStateMachine} {observed after : ObservedMachine} {math : MathLibrary}

/-- A tick that succeeds takes one of the steps, and is recorded. -/
theorem tickStep (sound : IsSound observed.machine) {realInterval : Rat}
    (ticked : observed.invoke math (.tick realInterval) = some after) :
    ∃ reported, TickStep math realInterval observed.machine after.machine reported ∧
      after.ticks = observed.ticks ++
        [{ before := observed.machine, realInterval, reported := reported.map some }] := by
  have branch := observed.machine.ticks math realInterval
  simp only [ObservedMachine.invoke] at ticked
  generalize outcome : observed.machine.tick math realInterval = result at ticked branch
  cases branch with
  | inactive inactive =>
      obtain rfl := Option.some.inj ticked
      exact ⟨none, .inactive inactive, rfl⟩
  | rests advances paused =>
      obtain rfl := Option.some.inj ticked
      exact ⟨none, .rests advances paused, rfl⟩
  | pauses active requested unpaused =>
      obtain rfl := Option.some.inj ticked
      exact ⟨_, .pauses active requested unpaused, rfl⟩
  | resumes active requested paused =>
      obtain ⟨actionStatus, remembered, entry⟩ := sound.resumes paused
      obtain rfl := Option.some.inj ticked
      rw [remembered]
      exact ⟨_, .resumes actionStatus active requested paused remembered entry, rfl⟩
  | begins active requested current =>
      obtain rfl := Option.some.inj ticked
      exact ⟨_, .begins active requested current, rfl⟩
  | cancels canceled entry =>
      obtain rfl := Option.some.inj ticked
      exact ⟨_, .cancels canceled entry, rfl⟩
  | terminates next terminated entry =>
      obtain rfl := Option.some.inj ticked
      exact ⟨_, .terminates next terminated entry, rfl⟩
  | unterminated => cases ticked
  | evaluates actionStatus evaluated =>
      obtain ⟨timed, entered⟩ := sound.evaluates evaluated
      rw [ActionStateMachine.passTime_timed math entered] at ticked
      cases elapsed : isElapsed math (observed.machine.timeIn actionStatus + realInterval)
          (getTransitionDuration timed observed.machine.actionContext.action) with
      | true =>
          rw [if_pos elapsed] at ticked
          obtain rfl := Option.some.inj ticked
          exact ⟨_, .leaves actionStatus timed evaluated entered elapsed, rfl⟩
      | false =>
          rw [if_neg (Bool.eq_false_iff.mp elapsed)] at ticked
          obtain rfl := Option.some.inj ticked
          exact ⟨none, .stays actionStatus timed evaluated entered elapsed, rfl⟩

theorem step (sound : IsSound asm) {realInterval : Rat} {reported : Option ActionStatus}
    (stepped : TickStep math realInterval asm next reported) : IsSound next := by
  cases stepped with
  | inactive | rests => exact sound
  | pauses active _ unpaused => exact sound.pauses (sound.hasEntry_onPause active unpaused)
  | resumes _ _ _ _ _ entry => exact sound.enters rfl rfl rfl rfl entry
  | begins => exact sound.enters rfl rfl rfl rfl sound.entries.onInit
  | cancels => exact sound.enters rfl rfl rfl rfl (by rfl)
  | terminates next _ entry =>
      have ends := sound.entries.onTerminate next entry
      exact sound.enters rfl rfl rfl rfl (by simp [VirtualActionDefinition.hasEntry, ends])
  | stays => exact sound.of_same rfl rfl rfl rfl sound.cancels sound.terminates
  | leaves _ _ _ entered => exact sound.enters rfl rfl rfl rfl (sound.entries.next entered)

/-- Every method keeps a machine in statuses that have entries. -/
theorem invoke {call : MachineCall} (sound : IsSound observed.machine)
    (invoked : observed.invoke math call = some after) : IsSound after.machine := by
  cases call with
  | terminate =>
      obtain rfl := Option.some.inj invoked
      exact sound.terminate
  | cancel =>
      obtain rfl := Option.some.inj invoked
      exact sound.cancel
  | pause | unpause =>
      obtain rfl := Option.some.inj invoked
      exact sound.of_same rfl rfl rfl rfl sound.cancels sound.terminates
  | tick realInterval =>
      obtain ⟨reported, stepped, -⟩ := sound.tickStep invoked
      exact sound.step stepped

end IsSound

/-! ## Missing entries -/

/-- A tick that carries out a termination fails without `ON_TERMINATE`. -/
private theorem ActionStateMachine.tick_unterminated {asm : ActionStateMachine} (math : MathLibrary)
    (realInterval : Rat) (terminated : asm.terminates = true)
    (absent : asm.actionDefinition.transitions.onTerminate = none) :
    asm.tick math realInterval = .typeError := by
  simp only [ActionStateMachine.terminates, advances, Bool.and_eq_true, Bool.not_eq_true',
    decide_eq_true_eq] at terminated
  obtain ⟨⟨⟨⟨active, known⟩, pausing⟩, uncanceled⟩, requested⟩ := terminated
  obtain ⟨actionStatus, current⟩ := Option.isSome_iff_exists.mp known
  simp only [current, Option.some.injEq] at pausing
  by_cases paused : actionStatus = .paused <;>
    simp [tick, active, current, pausing, paused, uncanceled, requested, absent]

namespace IsSound

variable {asm : ActionStateMachine}

/-- A tick fails only if it carries out a termination without `ON_TERMINATE`. -/
theorem tick_eq_typeError_iff (sound : IsSound asm) (math : MathLibrary) (realInterval : Rat) :
    asm.tick math realInterval = .typeError ↔
      asm.terminates = true ∧ asm.actionDefinition.transitions.onTerminate = none := by
  constructor
  · intro failed
    have branch := asm.ticks math realInterval
    generalize outcome : asm.tick math realInterval = result at branch failed
    cases branch with
    | unterminated terminated absent => exact ⟨terminated, absent⟩
    | inactive | rests | pauses | resumes | begins | cancels | terminates => cases failed
    | evaluates actionStatus evaluated =>
        obtain ⟨timed, entered⟩ := sound.evaluates evaluated
        rw [ActionStateMachine.passTime_timed math entered] at failed
        split at failed <;> cases failed
  · rintro ⟨terminated, absent⟩
    exact asm.tick_unterminated math realInterval terminated absent

/-- The entries looked up by a tick are present unless it carries out a termination
without `ON_TERMINATE`. -/
private theorem findsEntries_iff (sound : IsSound asm) :
    asm.FindsEntries ↔
      (asm.terminates = true → asm.actionDefinition.transitions.onTerminate.isSome = true) := by
  refine ⟨fun found => found.onTerminate, fun onTerminate => ⟨onTerminate, fun canceled => ?_, ?_⟩⟩
  · rw [ActionStateMachine.cancels, Bool.and_eq_true, decide_eq_true_eq] at canceled
    exact sound.cancels canceled.2
  · intro actionStatus evaluated
    obtain ⟨timed, entered⟩ := sound.evaluates evaluated
    exact ⟨timed, ActionStateMachine.timedTransition_of_timed entered⟩

end IsSound

namespace IsSound

variable {math : MathLibrary} {observed after : ObservedMachine}

private theorem step_same {asm next : ActionStateMachine} {realInterval : Rat}
    {reported : Option ActionStatus} (stepped : TickStep math realInterval asm next reported) :
    next.actionDefinition = asm.actionDefinition ∧ next.actionContext = asm.actionContext := by
  cases stepped <;> simp [ActionStateMachine.setTime]

/-- A method changes neither the definition nor the action. -/
private theorem invoke_same {call : MachineCall} (sound : IsSound observed.machine)
    (invoked : observed.invoke math call = some after) :
    after.machine.actionDefinition = observed.machine.actionDefinition ∧
      after.machine.actionContext = observed.machine.actionContext := by
  cases call with
  | terminate =>
      obtain rfl := Option.some.inj invoked
      rcases observed.machine.terminate_cases with same | ⟨-, -, same⟩ <;> simp [same]
  | cancel =>
      obtain rfl := Option.some.inj invoked
      rcases observed.machine.cancel_cases with same | ⟨-, -, same⟩ <;> simp [same]
  | pause | unpause =>
      obtain rfl := Option.some.inj invoked
      exact ⟨rfl, rfl⟩
  | tick realInterval =>
      obtain ⟨reported, stepped, -⟩ := sound.tickStep invoked
      exact step_same stepped

end IsSound

namespace MachineRun

variable {math : MathLibrary} {ref : Nat} {context : ActionContext}
  {definition : VirtualActionDefinition} {shouldPause : Bool} {calls : List MachineCall}
  {observed : ObservedMachine}

theorem sound (entries : definition.HasEntries)
    (run : MachineRun math (.create ref context definition shouldPause) calls observed) :
    IsSound observed.machine :=
  run.invariant (fun observed => IsSound observed.machine) (.create entries)
    fun _ sound _ invoked => sound.invoke invoked

theorem same (entries : definition.HasEntries)
    (run : MachineRun math (.create ref context definition shouldPause) calls observed) :
    observed.machine.actionDefinition = definition ∧ observed.machine.actionContext = context :=
  run.invariant
    (fun observed => observed.machine.actionDefinition = definition ∧
      observed.machine.actionContext = context)
    ⟨rfl, rfl⟩ fun run same _ invoked =>
      have kept := IsSound.invoke_same (sound entries run) invoked
      ⟨kept.1.trans same.1, kept.2.trans same.2⟩

end MachineRun

/-- The action of a definition that is found. -/
private theorem mem_actionDefinitions {action : Action} {scope : ActionScope}
    {definition : VirtualActionDefinition}
    (defined : getActionDefinition action scope = some definition) :
    definition ∈ actionDefinitions := List.mem_of_find?_eq_some defined

private theorem exists_definition_of_executable {context : ActionContext}
    (executable : isActionExecutable context = true) :
    ∃ definition, getActionDefinition context.action context.scope = some definition := by
  cases defined : getActionDefinition context.action context.scope with
  | none =>
      rw [isActionExecutable, defined] at executable
      cases executable
  | some definition => exact ⟨definition, rfl⟩

/-- Whatever has been called on the machine of an executable action, its ticks rely on
entries that are present if and only if the next one does not carry out a termination. -/
theorem findsEntries_iff_not_terminates {context : ActionContext}
    (executable : isActionExecutable context = true) :
    ∃ definition, getActionDefinition context.action context.scope = some definition ∧
      ∀ (math : MathLibrary) (ref : Nat) (shouldPause : Bool) (calls : List MachineCall)
        (observed : ObservedMachine),
        MachineRun math (.create ref context definition shouldPause) calls observed →
          ((∀ realInterval, observed.machine.tick math realInterval ≠ .typeError) ∧
              observed.machine.FindsEntries ↔
            observed.machine.terminates = false) := by
  obtain ⟨definition, defined⟩ := exists_definition_of_executable executable
  obtain ⟨entries, unterminated⟩ :=
    hasEntries_of_mem_actionDefinitions (mem_actionDefinitions defined)
  refine ⟨definition, defined, fun math ref shouldPause calls observed run => ?_⟩
  have sound := MachineRun.sound entries run
  have absent : observed.machine.actionDefinition.transitions.onTerminate = none := by
    rw [(MachineRun.same entries run).1, unterminated]
  constructor
  · rintro ⟨-, found⟩
    cases terminated : observed.machine.terminates with
    | false => rfl
    | true =>
        have present := found.onTerminate terminated
        rw [absent] at present
        cases present
  · intro continues
    constructor
    · intro realInterval failed
      have terminated := (sound.tick_eq_typeError_iff math realInterval).mp failed
      rw [continues] at terminated
      cases terminated.1
    · refine sound.findsEntries_iff.mpr fun terminated => ?_
      rw [continues] at terminated
      cases terminated

/-- Waiting on an edge. -/
def edgeNoop : ActionContext where
  action := noop .none
  scope := .edge axisEdge

theorem findsEntries_edgeNoop :
    ∃ definition, getActionDefinition edgeNoop.action edgeNoop.scope = some definition ∧
      ∀ (math : MathLibrary) (ref : Nat) (shouldPause : Bool) (calls : List MachineCall)
        (observed : ObservedMachine),
        MachineRun math (.create ref edgeNoop definition shouldPause) calls observed →
          ((∀ realInterval, observed.machine.tick math realInterval ≠ .typeError) ∧
              observed.machine.FindsEntries ↔
            observed.machine.terminates = false) :=
  findsEntries_iff_not_terminates (by decide)

/-- An edge action that is running and terminated on traversal makes the next tick fail. -/
theorem tick_fails_on_edgeNoop :
    ¬ ∀ context : ActionContext, isActionExecutable context = true →
      ∃ definition, getActionDefinition context.action context.scope = some definition ∧
        ∀ (math : MathLibrary) (ref : Nat) (shouldPause : Bool) (calls : List MachineCall)
          (observed : ObservedMachine),
          MachineRun math (.create ref context definition shouldPause) calls observed →
            (∀ realInterval, observed.machine.tick math realInterval ≠ .typeError) ∧
              observed.machine.FindsEntries := by
  intro finds
  obtain ⟨definition, defined, runs⟩ := finds edgeNoop (by decide)
  have executed : (getActionDefinition edgeNoop.action edgeNoop.scope).any (fun definition =>
      (Library.execute (ObservedMachine.invoke axisMath) (fun _ _ => True)
        { machine := .create 0 edgeNoop definition false } [.tick 1, .terminate]).any
          fun observed => observed.machine.terminates &&
            observed.machine.actionDefinition.transitions.onTerminate.isNone) = true := by
    decide
  rw [defined, Option.any_some] at executed
  obtain ⟨observed, run, passed⟩ :=
    MachineRun.exists_of_execute axisMath _ [.tick 1, .terminate] _ executed
  rw [Bool.and_eq_true, Option.isNone_iff_eq_none] at passed
  obtain ⟨terminated, absent⟩ := passed
  exact (runs axisMath 0 false _ observed run).1 1
    (observed.machine.tick_unterminated axisMath 1 terminated absent)

end VirtualAgvAdapter

end Vda5050
