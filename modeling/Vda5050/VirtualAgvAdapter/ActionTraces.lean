import Mathlib.Data.List.Induction
import Mathlib.Data.List.ReduceOption
import Vda5050.Library.EntryList
import Vda5050.Library.Trace
import Vda5050.VirtualAgvAdapter.ActionRuns

/-!
# Traces of action state machines

The statuses a machine reports follow its definition, however it is paused and
resumed. A status is left by time after the duration that is spent in it
without pauses.
-/

set_option autoImplicit false

namespace Vda5050

namespace VirtualAgvAdapter

open Library (Always)

/-! ## Required transitions -/

/-- The transitions required of a definition for actions of the given scope. -/
structure VirtualActionDefinition.HasRequiredTransitions (definition : VirtualActionDefinition)
    (scope : ScopeKind) : Prop extends definition.HasEntries where
  terminable : scope = .edge → definition.transitions.onTerminate.isSome = true

/-! ## Reported statuses -/

/-- The statuses reported, up to a point, without `PAUSED` and the status that is
reported again on resume. -/
structure MergedReports where
  statuses : List ActionStatus := []
  paused : Bool := false
  deriving DecidableEq, Repr

def MergedReports.add (merged : MergedReports) (actionStatus : ActionStatus) : MergedReports :=
  if actionStatus = .paused then { merged with paused := true }
  else if merged.paused && merged.statuses.getLast? = some actionStatus then
    { merged with paused := false }
  else { statuses := merged.statuses ++ [actionStatus], paused := false }

def mergeReports (reports : List ActionStatus) : MergedReports :=
  reports.foldl MergedReports.add {}

/-- The paths of a definition, which start with `ON_INIT.next`. -/
inductive VirtualActionDefinition.IsPath (definition : VirtualActionDefinition) :
    List ActionStatus → Prop where
  | nil : IsPath definition []
  | init : IsPath definition [definition.transitions.onInit]
  | next {path : List ActionStatus} {actionStatus : ActionStatus} {timed : TimedTransition} :
      IsPath definition (path ++ [actionStatus]) → definition.timed actionStatus = some timed →
      IsPath definition (path ++ [actionStatus] ++ [timed.next])

/-- What cuts a path short: nothing, the cancelation, or the termination. -/
inductive VirtualActionDefinition.CutsShort (definition : VirtualActionDefinition)
    (calls : List MachineCall) : List ActionStatus → Prop where
  | nothing : CutsShort definition calls []
  | canceled : definition.transitions.onCancel = true → .cancel ∈ calls →
      CutsShort definition calls [.failed]
  | terminated {next : ActionStatus} : definition.transitions.onTerminate = some next →
      .terminate ∈ calls → CutsShort definition calls [next]

/-- The statuses reported, of which each may be undefined. -/
def ObservedMachine.reports (observed : ObservedMachine) : List (Option ActionStatus) :=
  observed.ticks.filterMap (·.reported)

def ObservedMachine.merged (observed : ObservedMachine) : MergedReports :=
  mergeReports observed.reports.reduceOption

/-- Every status reported is defined. Together they are a path of the definition,
possibly cut short. -/
def ObservedMachine.FollowsPath (observed : ObservedMachine)
    (definition : VirtualActionDefinition) (calls : List MachineCall) : Prop :=
  none ∉ observed.reports ∧
    ∃ path final, observed.merged.statuses = path ++ final ∧
      definition.IsPath path ∧ definition.CutsShort calls final

/-- Nothing is reported after the end of the action. -/
def ObservedMachine.EndsOnce (observed : ObservedMachine) : Prop :=
  Always (fun past _ => ∀ actionStatus, some actionStatus ∈ past → actionStatus.isEnded = false)
    observed.reports

/-! ## Time spent in a status -/

namespace TickRecord

/-- The tick is spent in a status, neither paused nor requested to pause. -/
def isSpent (record : TickRecord) : Bool :=
  record.before.actionStatus.isSome && record.before.actionStatus ≠ some .paused &&
    !record.before.shouldPause

/-- The time spent in the current status after the tick. -/
def account (time : Rat) (record : TickRecord) : Rat :=
  if record.isSpent then
    if record.reported.isNone then time + record.realInterval else 0
  else time

/-- Neither the cancelation nor the termination of the action is requested. -/
def isUnrequested (record : TickRecord) : Bool :=
  record.before.shouldCancel = some false && record.before.shouldTerminate = some false

end TickRecord

/-- The time spent in the current status, from the ticks made so far. -/
def timeSpent (ticks : List TickRecord) : Rat := ticks.foldl TickRecord.account 0

/-- Unless its end is requested, an action leaves a status by time on exactly those
ticks, neither paused nor requested to pause, with which the duration has been spent. -/
def ObservedMachine.LeavesByTime (observed : ObservedMachine) (math : MathLibrary)
    (definition : VirtualActionDefinition) (action : Action) : Prop :=
  Always
    (fun past record => ∀ actionStatus timed, record.before.actionStatus = some actionStatus →
      definition.timed actionStatus = some timed → record.isUnrequested = true →
      (record.reported = some (some timed.next) ↔
        record.before.shouldPause = false ∧
          isElapsed math (timeSpent past + record.realInterval)
            (getTransitionDuration timed action) = true))
    observed.ticks

/-! ## Reports made by steps -/

private theorem mergeReports_concat (reports : List ActionStatus) (actionStatus : ActionStatus) :
    mergeReports (reports ++ [actionStatus]) = (mergeReports reports).add actionStatus := by
  simp [mergeReports]

private theorem mem_of_mem_mergeReports {reports : List ActionStatus} {actionStatus : ActionStatus}
    (member : actionStatus ∈ (mergeReports reports).statuses) : actionStatus ∈ reports := by
  induction reports using List.reverseRecOn with
  | nil => cases member
  | append_singleton reports last ih =>
      rw [mergeReports_concat, MergedReports.add] at member
      split at member
      · exact List.mem_append_left _ (ih member)
      split at member
      · exact List.mem_append_left _ (ih member)
      · rcases List.mem_append.mp member with earlier | same
        · exact List.mem_append_left _ (ih earlier)
        · exact List.mem_append_right _ same

namespace ObservedMachine

variable {observed after : ObservedMachine}

private theorem mem_reports_of_mem_merged {actionStatus : ActionStatus}
    (member : actionStatus ∈ observed.merged.statuses) : some actionStatus ∈ observed.reports :=
  List.reduceOption_mem_iff.mp (mem_of_mem_mergeReports member)

/-- A tick that reports nothing. -/
private theorem reports_silent {record : TickRecord} (silent : record.reported = none)
    (ticks : after.ticks = observed.ticks ++ [record]) : after.reports = observed.reports := by
  simp [reports, ticks, silent]

/-- A tick that reports a status. -/
private theorem reports_concat {record : TickRecord} {actionStatus : ActionStatus}
    (reported : record.reported = some (some actionStatus))
    (ticks : after.ticks = observed.ticks ++ [record]) :
    after.reports = observed.reports ++ [some actionStatus] := by
  simp [reports, ticks, reported]

theorem merged_concat {actionStatus : ActionStatus}
    (reports : after.reports = observed.reports ++ [some actionStatus]) :
    after.merged = observed.merged.add actionStatus := by
  rw [merged, reports, List.reduceOption_append, List.reduceOption_singleton]
  exact mergeReports_concat _ _

end ObservedMachine

namespace ActionStateMachine

variable {asm : ActionStateMachine}

private theorem isActive_transition (asm : ActionStateMachine) (actionStatus : ActionStatus) :
    (asm.transition (some actionStatus)).isActive = (!actionStatus.isEnded && asm.isActive) := by
  cases ended : actionStatus.isEnded <;> simp [transition, ended, isActive]

private theorem shouldCancel_of_transition {actionStatus : Option ActionStatus}
    (requested : (asm.transition actionStatus).shouldCancel = some true) :
    asm.shouldCancel = some true := by
  unfold transition at requested
  split at requested
  · cases requested
  · exact requested

private theorem shouldTerminate_of_transition {actionStatus : Option ActionStatus}
    (requested : (asm.transition actionStatus).shouldTerminate = some true) :
    asm.shouldTerminate = some true := by
  unfold transition at requested
  split at requested
  · cases requested
  · exact requested

/-- The status a machine is in, apart from pauses. -/
def currentStatus (asm : ActionStateMachine) : Option ActionStatus :=
  if asm.actionStatus = some .paused then asm.actionStatusOnPause else asm.actionStatus

private theorem currentStatus_of_unpaused (unpaused : asm.actionStatus ≠ some .paused) :
    asm.currentStatus = asm.actionStatus := if_neg unpaused

end ActionStateMachine

/-- What has been reported by a machine that has not ended, and where it stands. -/
structure IsUnderway (definition : VirtualActionDefinition) (observed : ObservedMachine) :
    Prop where
  unended : ∀ actionStatus, some actionStatus ∈ observed.reports → actionStatus.isEnded = false
  path : definition.IsPath observed.merged.statuses
  paused : observed.merged.paused = decide (observed.machine.actionStatus = some .paused)
  last : observed.merged.statuses.getLast? = observed.machine.currentStatus ∨
    observed.merged.statuses = [] ∧ observed.machine.actionStatus = some .paused ∧
      observed.machine.currentStatus = some definition.transitions.onInit

/-- What has been reported by a machine. -/
structure Follows (definition : VirtualActionDefinition) (calls : List MachineCall)
    (observed : ObservedMachine) : Prop where
  followsPath : observed.FollowsPath definition calls
  endsOnce : observed.EndsOnce
  underway : observed.machine.isActive = true → IsUnderway definition observed
  canceled : observed.machine.shouldCancel = some true → .cancel ∈ calls
  terminated : observed.machine.shouldTerminate = some true → .terminate ∈ calls

namespace VirtualActionDefinition

variable {definition : VirtualActionDefinition} {calls : List MachineCall}

theorem CutsShort.weaken {final : List ActionStatus} (call : MachineCall)
    (cuts : definition.CutsShort calls final) : definition.CutsShort (calls ++ [call]) final := by
  cases cuts with
  | nothing => exact .nothing
  | canceled entry requested => exact .canceled entry (List.mem_append_left _ requested)
  | terminated entry requested => exact .terminated entry (List.mem_append_left _ requested)

/-- A path that does not end in the given status is extended by a timed transition. -/
theorem IsPath.extend {path : List ActionStatus} {actionStatus : ActionStatus}
    {timed : TimedTransition} (isPath : definition.IsPath path)
    (last : path.getLast? = some actionStatus)
    (entered : definition.timed actionStatus = some timed) :
    definition.IsPath (path ++ [timed.next]) := by
  obtain ⟨front, rfl⟩ := List.getLast?_eq_some_iff.mp last
  exact .next isPath entered

end VirtualActionDefinition

namespace Follows

variable {definition : VirtualActionDefinition} {calls : List MachineCall}
  {observed after : ObservedMachine} {call : MachineCall}

/-- Nothing is reported, and the machine stands where it did. -/
theorem silent (follows : Follows definition calls observed)
    (reports : after.reports = observed.reports)
    (active : after.machine.isActive = observed.machine.isActive)
    (actionStatus : after.machine.actionStatus = observed.machine.actionStatus)
    (onPause : after.machine.actionStatusOnPause = observed.machine.actionStatusOnPause)
    (canceled : after.machine.shouldCancel = some true → .cancel ∈ calls ++ [call])
    (terminated : after.machine.shouldTerminate = some true → .terminate ∈ calls ++ [call]) :
    Follows definition (calls ++ [call]) after := by
  have merged : after.merged = observed.merged := by
    rw [ObservedMachine.merged, reports]
    rfl
  have current : after.machine.currentStatus = observed.machine.currentStatus := by
    rw [ActionStateMachine.currentStatus, actionStatus, onPause]
    rfl
  obtain ⟨defined, path, final, split, isPath, cuts⟩ := follows.followsPath
  refine
    { followsPath := ⟨by rwa [reports], path, final, merged ▸ split, isPath, cuts.weaken call⟩
      endsOnce := by rw [ObservedMachine.EndsOnce, reports]; exact follows.endsOnce
      underway := fun still => ?_
      canceled
      terminated }
  obtain ⟨unended, path, paused, last⟩ := follows.underway (active ▸ still)
  exact
    { unended := by rwa [reports]
      path := by rwa [merged]
      paused := by rwa [merged, actionStatus]
      last := by rwa [merged, current, actionStatus] }

/-- A status is reported, and the machine moves on unless it has ended. -/
theorem report (follows : Follows definition calls observed)
    (active : observed.machine.isActive = true) {actionStatus : ActionStatus}
    (reports : after.reports = observed.reports ++ [some actionStatus])
    {next : ActionStateMachine} (machine : after.machine = next.transition (some actionStatus))
    (canceled : next.shouldCancel = observed.machine.shouldCancel)
    (terminated : next.shouldTerminate = observed.machine.shouldTerminate)
    (cuts : ∃ path final, after.merged.statuses = path ++ final ∧ definition.IsPath path ∧
      definition.CutsShort (calls ++ [call]) final)
    (underway : actionStatus.isEnded = false → definition.IsPath after.merged.statuses ∧
      after.merged.paused = decide (after.machine.actionStatus = some .paused) ∧
      (after.merged.statuses.getLast? = after.machine.currentStatus ∨
        after.merged.statuses = [] ∧ after.machine.actionStatus = some .paused ∧
          after.machine.currentStatus = some definition.transitions.onInit)) :
    Follows definition (calls ++ [call]) after := by
  obtain ⟨unended, -, -, -⟩ := follows.underway active
  obtain ⟨path, final, split, isPath, cuts⟩ := cuts
  have defined : none ∉ after.reports := by
    rw [reports]
    simpa using follows.followsPath.1
  refine
    { followsPath := ⟨defined, path, final, split, isPath, cuts⟩
      endsOnce := ?_
      underway := fun still => ?_
      canceled := fun requested => ?_
      terminated := fun requested => ?_ }
  · rw [ObservedMachine.EndsOnce, reports]
    exact Always.snoc_iff.mpr ⟨follows.endsOnce, unended⟩
  · rw [machine, ActionStateMachine.isActive_transition, Bool.and_eq_true, Bool.not_eq_true']
      at still
    obtain ⟨path, paused, last⟩ := underway still.1
    refine { unended := fun other member => ?_, path, paused, last }
    rw [reports] at member
    rcases List.mem_append.mp member with earlier | same
    · exact unended other earlier
    · obtain rfl := Option.some.inj (List.mem_singleton.mp same)
      exact still.1
  · rw [machine] at requested
    have before := ActionStateMachine.shouldCancel_of_transition requested
    exact List.mem_append_left _ (follows.canceled (canceled ▸ before))
  · rw [machine] at requested
    have before := ActionStateMachine.shouldTerminate_of_transition requested
    exact List.mem_append_left _ (follows.terminated (terminated ▸ before))

/-- A status other than the one to resume is reported, on the path or at the end. -/
theorem moves (follows : Follows definition calls observed)
    (active : observed.machine.isActive = true) {actionStatus : ActionStatus}
    (reports : after.reports = observed.reports ++ [some actionStatus])
    {next : ActionStateMachine} (machine : after.machine = next.transition (some actionStatus))
    (canceled : next.shouldCancel = observed.machine.shouldCancel)
    (terminated : next.shouldTerminate = observed.machine.shouldTerminate)
    (unpaused : actionStatus ≠ .paused)
    (fresh : observed.merged.statuses.getLast? ≠ some actionStatus ∨
      observed.merged.paused = false)
    (continues : definition.IsPath (observed.merged.statuses ++ [actionStatus]) ∨
      actionStatus.isEnded = true ∧ definition.CutsShort (calls ++ [call]) [actionStatus]) :
    Follows definition (calls ++ [call]) after := by
  have merged : after.merged =
      { statuses := observed.merged.statuses ++ [actionStatus], paused := false } := by
    rw [ObservedMachine.merged_concat reports, MergedReports.add, if_neg unpaused, if_neg]
    rw [Bool.and_eq_true, decide_eq_true_eq]
    rintro ⟨paused, last⟩
    rcases fresh with other | resumed
    · exact other last
    · rw [resumed] at paused
      cases paused
  refine follows.report active reports machine canceled terminated ?_ fun lasts => ?_
  · rcases continues with path | ⟨-, cuts⟩
    · exact ⟨_, [], by rw [merged, List.append_nil], path, .nothing⟩
    · exact ⟨_, [actionStatus], by rw [merged], (follows.underway active).path, cuts⟩
  · have path : definition.IsPath after.merged.statuses := by
      rw [merged]
      refine continues.resolve_right fun ended => ?_
      rw [lasts] at ended
      cases ended.1
    have entered : after.machine.actionStatus = some actionStatus := by simp [machine]
    have standing : after.machine.actionStatus ≠ some .paused := by simp [entered, unpaused]
    refine ⟨path, by rw [merged, decide_eq_false standing], .inl ?_⟩
    rw [merged, ActionStateMachine.currentStatus_of_unpaused standing, entered]
    simp

/-- `PAUSED` is reported. -/
theorem pauses (follows : Follows definition calls observed)
    (active : observed.machine.isActive = true)
    (same : observed.machine.actionDefinition = definition)
    (unpaused : observed.machine.actionStatus ≠ some .paused)
    (reports : after.reports = observed.reports ++ [some .paused])
    (machine : after.machine =
      ActionStateMachine.transition
        { observed.machine with
          actionStatusOnPause :=
            some (observed.machine.actionStatus.getD
              observed.machine.actionDefinition.transitions.onInit) }
        (some .paused)) :
    Follows definition (calls ++ [call]) after := by
  have merged : after.merged = { observed.merged with paused := true } := by
    rw [ObservedMachine.merged_concat reports, MergedReports.add, if_pos rfl]
  obtain ⟨-, path, -, last⟩ := follows.underway active
  refine follows.report active reports machine rfl rfl ?_ fun _ => ⟨?_, ?_, ?_⟩
  · exact ⟨_, [], by rw [merged, List.append_nil], path, .nothing⟩
  · rwa [merged]
  · simp [merged, machine]
  · have remembered : after.machine.currentStatus =
        some (observed.machine.actionStatus.getD definition.transitions.onInit) := by
      simp [machine, ActionStateMachine.currentStatus, same]
    rw [merged, remembered]
    rcases last with last | ⟨-, paused, -⟩
    · rw [ActionStateMachine.currentStatus_of_unpaused unpaused] at last
      cases current : observed.machine.actionStatus with
      | none =>
          rw [current, List.getLast?_eq_none_iff] at last
          exact .inr ⟨last, by simp [machine], rfl⟩
      | some actionStatus => exact .inl (last.trans current)
    · exact absurd paused unpaused

/-- The status to resume is reported again, or for the first time. -/
theorem resumes (follows : Follows definition calls observed)
    (active : observed.machine.isActive = true)
    (paused : observed.machine.actionStatus = some .paused) {actionStatus : ActionStatus}
    (remembered : observed.machine.actionStatusOnPause = some actionStatus)
    (unpaused : actionStatus ≠ .paused)
    (reports : after.reports = observed.reports ++ [some actionStatus])
    (machine : after.machine =
      ActionStateMachine.transition { observed.machine with actionStatusOnPause := none }
        (some actionStatus)) :
    Follows definition (calls ++ [call]) after := by
  have current : observed.machine.currentStatus = some actionStatus := by
    rw [ActionStateMachine.currentStatus, if_pos paused, remembered]
  obtain ⟨unended, path, wasPaused, last⟩ := follows.underway active
  rcases last with last | ⟨started, -, initial⟩
  · rw [current] at last
    have merged : after.merged = { observed.merged with paused := false } := by
      rw [ObservedMachine.merged_concat reports, MergedReports.add, if_neg unpaused, if_pos]
      simp [wasPaused, paused, last]
    have entered : after.machine.actionStatus = some actionStatus := by simp [machine]
    have standing : after.machine.actionStatus ≠ some .paused := by simp [entered, unpaused]
    refine follows.report active reports machine rfl rfl ?_ fun _ => ⟨?_, ?_, .inl ?_⟩
    · exact ⟨_, [], by rw [merged, List.append_nil], path, .nothing⟩
    · rwa [merged]
    · rw [merged, decide_eq_false standing]
    · rw [merged, ActionStateMachine.currentStatus_of_unpaused standing, entered]
      exact last
  · rw [current, Option.some.injEq] at initial
    refine follows.moves active reports machine rfl rfl unpaused ?_ (.inl ?_)
    · simp [started]
    · rw [started, initial]
      exact .init

/-- A status that ends the action is reported. -/
theorem ends (follows : Follows definition calls observed)
    (active : observed.machine.isActive = true) {actionStatus : ActionStatus}
    (ended : actionStatus.isEnded = true)
    (reports : after.reports = observed.reports ++ [some actionStatus])
    (machine : after.machine = observed.machine.transition (some actionStatus))
    (cuts : definition.CutsShort (calls ++ [call]) [actionStatus]) :
    Follows definition (calls ++ [call]) after := by
  have unpaused : actionStatus ≠ .paused := by
    rintro rfl
    cases ended
  refine follows.moves active reports machine rfl rfl unpaused (.inl fun last => ?_)
    (.inr ⟨ended, cuts⟩)
  have member := ObservedMachine.mem_reports_of_mem_merged (List.mem_of_getLast? last)
  have lasts := (follows.underway active).unended actionStatus member
  rw [ended] at lasts
  cases lasts

/-- The reports follow the definition over a tick. -/
theorem step {math : MathLibrary} {realInterval : Rat} {reported : Option ActionStatus}
    (follows : Follows definition calls observed)
    (entries : definition.HasEntries) (same : observed.machine.actionDefinition = definition)
    (stepped : TickStep math realInterval observed.machine after.machine reported)
    (ticks : after.ticks = observed.ticks ++
      [{ before := observed.machine, realInterval, reported := reported.map some }]) :
    Follows definition (calls ++ [call]) after := by
  have canceled := fun requested => List.mem_append_left [call] (follows.canceled requested)
  have terminated := fun requested => List.mem_append_left [call] (follows.terminated requested)
  generalize machine : after.machine = next at stepped
  cases stepped with
  | inactive | rests =>
      exact follows.silent (ObservedMachine.reports_silent rfl ticks) (by rw [machine])
        (by rw [machine]) (by rw [machine]) (by rwa [machine]) (by rwa [machine])
  | stays =>
      exact follows.silent (ObservedMachine.reports_silent rfl ticks) (by rw [machine]; rfl)
        (by rw [machine]; rfl) (by rw [machine]; rfl) (by rwa [machine]) (by rwa [machine])
  | pauses active _ unpaused =>
      exact follows.pauses active same unpaused (ObservedMachine.reports_concat rfl ticks) machine
  | resumes actionStatus active _ paused remembered entry =>
      exact follows.resumes active paused remembered
        (VirtualActionDefinition.hasEntry_ne_paused entry)
        (ObservedMachine.reports_concat rfl ticks) machine
  | begins active _ current =>
      obtain ⟨-, path, paused, last⟩ := follows.underway active
      have started : observed.merged.statuses = [] := by
        rcases last with last | ⟨started, -, -⟩
        · rw [ActionStateMachine.currentStatus_of_unpaused (by simp [current]), current] at last
          exact List.getLast?_eq_none_iff.mp last
        · exact started
      have unpaused := VirtualActionDefinition.hasEntry_ne_paused entries.onInit
      rw [same] at machine ticks
      refine follows.moves active (ObservedMachine.reports_concat rfl ticks) machine rfl rfl
        unpaused ?_ (.inl ?_)
      · simp [started]
      · rw [started]
        exact .init
  | cancels requested entry =>
      rw [ActionStateMachine.cancels, Bool.and_eq_true, decide_eq_true_eq] at requested
      refine follows.ends (ActionStateMachine.isActive_of_advances requested.1) rfl
        (ObservedMachine.reports_concat rfl ticks) machine ?_
      exact .canceled (same ▸ entry) (canceled requested.2)
  | terminates next requested entry =>
      simp only [ActionStateMachine.terminates, Bool.and_eq_true, decide_eq_true_eq] at requested
      rw [same] at entry
      refine follows.ends (ActionStateMachine.isActive_of_advances requested.1.1)
        (entries.onTerminate next entry) (ObservedMachine.reports_concat rfl ticks) machine ?_
      exact .terminated entry (terminated requested.2)
  | leaves actionStatus timed evaluated entered elapsed =>
      obtain ⟨advances, current, unpaused, -⟩ :=
        ActionStateMachine.advances_of_evaluates evaluated
      have active := ActionStateMachine.isActive_of_advances advances
      have standing : observed.machine.actionStatus ≠ some .paused := by simp [current, unpaused]
      obtain ⟨-, path, paused, last⟩ := follows.underway active
      rw [same] at entered
      have reached : observed.merged.statuses.getLast? = some actionStatus := by
        rcases last with last | ⟨-, paused, -⟩
        · rwa [ActionStateMachine.currentStatus_of_unpaused standing, current] at last
        · exact absurd paused standing
      refine follows.moves active (ObservedMachine.reports_concat rfl ticks) machine rfl rfl
        (VirtualActionDefinition.hasEntry_ne_paused (entries.next entered)) (.inr ?_)
        (.inl (path.extend reached entered))
      rw [paused, decide_eq_false standing]

/-- The reports follow the definition, whatever method is invoked. -/
theorem invoke {math : MathLibrary} (follows : Follows definition calls observed)
    (sound : IsSound observed.machine) (same : observed.machine.actionDefinition = definition)
    (invoked : observed.invoke math call = some after) :
    Follows definition (calls ++ [call]) after := by
  have canceled := fun requested => List.mem_append_left [call] (follows.canceled requested)
  have terminated := fun requested => List.mem_append_left [call] (follows.terminated requested)
  cases call with
  | tick realInterval =>
      obtain ⟨reported, stepped, ticks⟩ := sound.tickStep invoked
      exact follows.step (same ▸ sound.entries) same stepped ticks
  | pause | unpause =>
      obtain rfl := Option.some.inj invoked
      exact follows.silent rfl rfl rfl rfl canceled terminated
  | terminate =>
      obtain rfl := Option.some.inj invoked
      rcases observed.machine.terminate_cases with same | ⟨unrequested, -, same⟩
      · exact follows.silent rfl (by rw [same]) (by rw [same]) (by rw [same]) (by rwa [same])
          (by rwa [same])
      · refine follows.silent rfl ?_ (by rw [same]) (by rw [same]) (by rwa [same]) fun _ => ?_
        · simp [same, ActionStateMachine.isActive, unrequested]
        · exact List.mem_append_right _ (List.mem_singleton_self _)
  | cancel =>
      obtain rfl := Option.some.inj invoked
      rcases observed.machine.cancel_cases with same | ⟨unrequested, -, same⟩
      · exact follows.silent rfl (by rw [same]) (by rw [same]) (by rw [same]) (by rwa [same])
          (by rwa [same])
      · refine follows.silent rfl ?_ (by rw [same]) (by rw [same]) (fun _ => ?_) (by rwa [same])
        · simp [same, ActionStateMachine.isActive, unrequested]
        · exact List.mem_append_right _ (List.mem_singleton_self _)

end Follows

/-! ## Time accounts -/

private theorem timeSpent_concat (ticks : List TickRecord) (record : TickRecord) :
    timeSpent (ticks ++ [record]) = record.account (timeSpent ticks) := by
  simp [timeSpent]

@[simp] theorem ActionStateMachine.timeIn_setTime (asm : ActionStateMachine)
    (actionStatus other : ActionStatus) (time : Rat) :
    (asm.setTime actionStatus time).timeIn other =
      if other = actionStatus then time else asm.timeIn other := by
  have found := Library.lookup_put actionStatus other time asm.statusDurationTimes
  unfold timeIn
  rw [setTime]
  dsimp only
  change ((Library.put _ _ _).lookup other).getD 0 = _
  rw [found]
  split <;> rfl

@[simp] theorem ActionStateMachine.timeIn_transition (asm : ActionStateMachine)
    (entered : Option ActionStatus) (actionStatus : ActionStatus) :
    (asm.transition entered).timeIn actionStatus = asm.timeIn actionStatus := by
  simp [timeIn]

/-- The status a machine is in after a transition to a status other than `PAUSED`. -/
private theorem ActionStateMachine.currentStatus_transition (asm : ActionStateMachine)
    {actionStatus : ActionStatus} (unpaused : actionStatus ≠ .paused) :
    (asm.transition (some actionStatus)).currentStatus = some actionStatus := by
  rw [currentStatus_of_unpaused (by simpa using unpaused), actionStatus_transition]

/-- The accounts of a machine agree with its ticks. -/
structure Accounts (math : MathLibrary) (definition : VirtualActionDefinition) (action : Action)
    (observed : ObservedMachine) : Prop where
  leavesByTime : observed.LeavesByTime math definition action
  time : observed.machine.isActive = true → ∀ actionStatus,
    observed.machine.timeIn actionStatus =
      if observed.machine.currentStatus = some actionStatus then timeSpent observed.ticks else 0
  unstarted : observed.machine.actionStatus = none → timeSpent observed.ticks = 0

namespace Accounts

variable {math : MathLibrary} {definition : VirtualActionDefinition} {action : Action}
  {observed after : ObservedMachine} {realInterval : Rat} {reported : Option ActionStatus}

/-- The time account of the status a machine is in. -/
private theorem timeIn_eq (accounts : Accounts math definition action observed)
    {actionStatus : ActionStatus} (evaluated : observed.machine.evaluates actionStatus = true) :
    observed.machine.timeIn actionStatus = timeSpent observed.ticks := by
  obtain ⟨advances, current, unpaused, -⟩ := ActionStateMachine.advances_of_evaluates evaluated
  have standing : observed.machine.actionStatus ≠ some .paused := by simp [current, unpaused]
  rw [accounts.time (ActionStateMachine.isActive_of_advances advances),
    ActionStateMachine.currentStatus_of_unpaused standing, current, if_pos rfl]

/-- A tick leaves a status by time exactly if the duration has been spent. -/
private theorem leaves_iff (accounts : Accounts math definition action observed)
    (entries : definition.HasEntries) (same : observed.machine.actionDefinition = definition)
    (sameAction : observed.machine.actionContext.action = action)
    {next : ActionStateMachine}
    (stepped : TickStep math realInterval observed.machine next reported)
    {actionStatus : ActionStatus} {timed : TimedTransition}
    (current : observed.machine.actionStatus = some actionStatus)
    (entered : definition.timed actionStatus = some timed)
    (unrequested : observed.machine.shouldCancel = some false ∧
      observed.machine.shouldTerminate = some false) :
    reported.map some = some (some timed.next) ↔
      observed.machine.shouldPause = false ∧
        isElapsed math (timeSpent observed.ticks + realInterval)
          (getTransitionDuration timed action) = true := by
  have active : observed.machine.isActive = true := by
    simp [ActionStateMachine.isActive, unrequested]
  have unpaused : observed.machine.actionStatus ≠ some .paused := by
    rw [current]
    rintro paused
    rw [Option.some.inj paused] at entered
    cases entered
  cases stepped with
  | inactive inactive =>
      rw [active] at inactive
      cases inactive
  | pauses _ requested _ =>
      have moves := VirtualActionDefinition.hasEntry_ne_paused (entries.next entered)
      simp [requested, moves.symm]
  | resumes _ _ _ paused => exact absurd paused unpaused
  | rests _ paused => exact absurd paused unpaused
  | begins _ _ unstarted =>
      rw [current] at unstarted
      cases unstarted
  | cancels requested =>
      simp [ActionStateMachine.cancels, unrequested] at requested
  | terminates _ requested =>
      simp [ActionStateMachine.terminates, unrequested] at requested
  | stays other otherTimed evaluated otherEntered elapsed =>
      obtain ⟨-, otherCurrent, -, requested⟩ := ActionStateMachine.advances_of_evaluates evaluated
      obtain rfl := Option.some.inj (current.symm.trans otherCurrent)
      rw [same] at otherEntered
      obtain rfl := Option.some.inj (entered.symm.trans otherEntered)
      rw [accounts.timeIn_eq evaluated, sameAction] at elapsed
      simp [elapsed]
  | leaves other otherTimed evaluated otherEntered elapsed =>
      obtain ⟨-, otherCurrent, -, requested⟩ := ActionStateMachine.advances_of_evaluates evaluated
      obtain rfl := Option.some.inj (current.symm.trans otherCurrent)
      rw [same] at otherEntered
      obtain rfl := Option.some.inj (entered.symm.trans otherEntered)
      rw [accounts.timeIn_eq evaluated, sameAction] at elapsed
      simp [elapsed, requested]

private theorem leavesByTime_concat (accounts : Accounts math definition action observed)
    (entries : definition.HasEntries) (same : observed.machine.actionDefinition = definition)
    (sameAction : observed.machine.actionContext.action = action)
    (stepped : TickStep math realInterval observed.machine after.machine reported)
    (ticks : after.ticks = observed.ticks ++
      [{ before := observed.machine, realInterval, reported := reported.map some }]) :
    after.LeavesByTime math definition action := by
  rw [ObservedMachine.LeavesByTime, ticks]
  refine Always.snoc_iff.mpr ⟨accounts.leavesByTime, ?_⟩
  intro actionStatus timed current entered unrequested
  rw [TickRecord.isUnrequested, Bool.and_eq_true, decide_eq_true_eq, decide_eq_true_eq]
    at unrequested
  exact accounts.leaves_iff entries same sameAction stepped current entered unrequested

/-- The accounts agree with the ticks over a tick. -/
theorem step (accounts : Accounts math definition action observed)
    (entries : definition.HasEntries) (same : observed.machine.actionDefinition = definition)
    (sameAction : observed.machine.actionContext.action = action)
    (stepped : TickStep math realInterval observed.machine after.machine reported)
    (ticks : after.ticks = observed.ticks ++
      [{ before := observed.machine, realInterval, reported := reported.map some }]) :
    Accounts math definition action after := by
  have leavesByTime := accounts.leavesByTime_concat entries same sameAction stepped ticks
  refine { leavesByTime, time := fun active actionStatus => ?_, unstarted := fun unstarted => ?_ }
  · rw [ticks, timeSpent_concat]
    generalize machine : after.machine = next at stepped active
    cases stepped with
    | inactive inactive =>
        rw [active] at inactive
        cases inactive
    | rests advances paused =>
        rw [accounts.time active]
        simp [TickRecord.account, TickRecord.isSpent, paused]
    | pauses wasActive requested unpaused =>
        have known := accounts.time wasActive actionStatus
        rw [ActionStateMachine.currentStatus_of_unpaused unpaused] at known
        have current (asm : ActionStateMachine) : (ActionStateMachine.transition asm
            (some .paused)).currentStatus = asm.actionStatusOnPause := by
          simp [ActionStateMachine.currentStatus]
        rw [current, ActionStateMachine.timeIn_transition]
        refine known.trans ?_
        simp only [TickRecord.account, TickRecord.isSpent, requested]
        cases status : observed.machine.actionStatus with
        | none => simp [accounts.unstarted status]
        | some other => simp
    | resumes other wasActive _ paused remembered entry =>
        have known := accounts.time wasActive actionStatus
        rw [ActionStateMachine.currentStatus, if_pos paused, remembered] at known
        rw [ActionStateMachine.currentStatus_transition _
          (VirtualActionDefinition.hasEntry_ne_paused entry), ActionStateMachine.timeIn_transition]
        refine known.trans ?_
        simp [TickRecord.account, TickRecord.isSpent, paused]
    | begins wasActive _ current =>
        have known := accounts.time wasActive actionStatus
        have unspent := accounts.unstarted current
        simp only [unspent, ite_self] at known
        simp [known, TickRecord.account, TickRecord.isSpent, current, unspent]
    | cancels =>
        rw [ActionStateMachine.isActive_transition] at active
        cases active
    | terminates next _ entry =>
        rw [ActionStateMachine.isActive_transition,
          entries.onTerminate next (same ▸ entry)] at active
        cases active
    | stays other timed evaluated =>
        obtain ⟨advances, current, unpaused, requested⟩ :=
          ActionStateMachine.advances_of_evaluates evaluated
        have standing : observed.machine.actionStatus ≠ some .paused := by
          simp [current, unpaused]
        have known := accounts.time active actionStatus
        have still (time : Rat) : (observed.machine.setTime other time).currentStatus =
            some other := by
          rw [← current]
          exact ActionStateMachine.currentStatus_of_unpaused standing
        rw [ActionStateMachine.currentStatus_of_unpaused standing, current] at known
        rw [ActionStateMachine.timeIn_setTime, still, accounts.timeIn_eq evaluated]
        by_cases here : actionStatus = other
        · simp [here, TickRecord.account, TickRecord.isSpent, current, unpaused, requested]
        · rw [if_neg (by simpa using Ne.symm here)] at known
          rw [if_neg here, if_neg (by simpa using Ne.symm here), known]
    | leaves other timed evaluated entered =>
        obtain ⟨advances, current, unpaused, requested⟩ :=
          ActionStateMachine.advances_of_evaluates evaluated
        have standing : observed.machine.actionStatus ≠ some .paused := by
          simp [current, unpaused]
        have known := accounts.time (ActionStateMachine.isActive_of_advances advances) actionStatus
        rw [ActionStateMachine.currentStatus_of_unpaused standing, current] at known
        have restarted : (observed.machine.setTime other 0).timeIn actionStatus = 0 := by
          rw [ActionStateMachine.timeIn_setTime]
          by_cases here : actionStatus = other
          · rw [if_pos here]
          · rw [if_neg here, known, if_neg (by simpa using Ne.symm here)]
        rw [ActionStateMachine.timeIn_transition, restarted]
        simp [TickRecord.account, TickRecord.isSpent, current, unpaused, requested]
  · generalize machine : after.machine = next at stepped unstarted
    rw [ticks, timeSpent_concat]
    cases stepped with
    | inactive =>
        simp [TickRecord.account, TickRecord.isSpent, unstarted, accounts.unstarted unstarted]
    | rests _ paused =>
        rw [unstarted] at paused
        cases paused
    | stays _ _ evaluated =>
        obtain ⟨-, current, -, -⟩ := ActionStateMachine.advances_of_evaluates evaluated
        rw [ActionStateMachine.setTime, current] at unstarted
        cases unstarted
    | pauses | resumes | begins | cancels | terminates | leaves =>
        rw [ActionStateMachine.actionStatus_transition] at unstarted
        cases unstarted

/-- Nothing but requests to end the action or to pause it have changed. -/
theorem of_same (accounts : Accounts math definition action observed)
    (ticks : after.ticks = observed.ticks)
    (active : after.machine.isActive = observed.machine.isActive)
    (actionStatus : after.machine.actionStatus = observed.machine.actionStatus)
    (onPause : after.machine.actionStatusOnPause = observed.machine.actionStatusOnPause)
    (times : after.machine.statusDurationTimes = observed.machine.statusDurationTimes) :
    Accounts math definition action after where
  leavesByTime := by
    rw [ObservedMachine.LeavesByTime, ticks]
    exact accounts.leavesByTime
  time := by
    rw [active, ticks]
    simp only [ActionStateMachine.timeIn, ActionStateMachine.currentStatus, actionStatus, onPause,
      times]
    exact accounts.time
  unstarted := by
    rw [actionStatus, ticks]
    exact accounts.unstarted

/-- The accounts agree with the ticks, whatever method is invoked. -/
theorem invoke (accounts : Accounts math definition action observed) {call : MachineCall}
    (sound : IsSound observed.machine) (same : observed.machine.actionDefinition = definition)
    (sameAction : observed.machine.actionContext.action = action)
    (invoked : observed.invoke math call = some after) :
    Accounts math definition action after := by
  cases call with
  | tick realInterval =>
      obtain ⟨reported, stepped, ticks⟩ := sound.tickStep invoked
      exact accounts.step (same ▸ sound.entries) same sameAction stepped ticks
  | pause | unpause =>
      obtain rfl := Option.some.inj invoked
      exact accounts.of_same rfl rfl rfl rfl rfl
  | terminate =>
      obtain rfl := Option.some.inj invoked
      rcases observed.machine.terminate_cases with same | ⟨unrequested, -, same⟩
      · exact accounts.of_same rfl (by rw [same]) (by rw [same]) (by rw [same]) (by rw [same])
      · refine accounts.of_same rfl ?_ (by rw [same]) (by rw [same]) (by rw [same])
        simp [same, ActionStateMachine.isActive, unrequested]
  | cancel =>
      obtain rfl := Option.some.inj invoked
      rcases observed.machine.cancel_cases with same | ⟨unrequested, -, same⟩
      · exact accounts.of_same rfl (by rw [same]) (by rw [same]) (by rw [same]) (by rw [same])
      · refine accounts.of_same rfl ?_ (by rw [same]) (by rw [same]) (by rw [same])
        simp [same, ActionStateMachine.isActive, unrequested]

end Accounts

/-! ## Runs -/

namespace MachineRun

variable {math : MathLibrary} {ref : Nat} {context : ActionContext}
  {definition : VirtualActionDefinition} {shouldPause : Bool} {calls : List MachineCall}
  {observed : ObservedMachine}

theorem follows (entries : definition.HasEntries)
    (run : MachineRun math (.create ref context definition shouldPause) calls observed) :
    Follows definition calls observed := by
  induction run with
  | start =>
      refine
        { followsPath := ⟨nofun, [], [], rfl, .nil, .nothing⟩
          endsOnce := Always.nil
          underway := fun _ =>
            { unended := nofun
              path := .nil
              paused := rfl
              last := .inl rfl }
          canceled := nofun
          terminated := nofun }
  | advance run _ invoked ih =>
      exact ih.invoke (sound entries run) (same entries run).1 invoked

theorem accounts (entries : definition.HasEntries)
    (run : MachineRun math (.create ref context definition shouldPause) calls observed) :
    Accounts math definition context.action observed :=
  run.invariant (Accounts math definition context.action)
    { leavesByTime := by exact Always.nil
      time := fun _ _ => rfl
      unstarted := fun _ => rfl }
    fun run accounts _ invoked =>
      accounts.invoke (sound entries run) (same entries run).1
        (congrArg ActionContext.action (same entries run).2) invoked

/-- No method fails on a machine whose definition has the required transitions. -/
private theorem exists_of_required
    (required : definition.HasRequiredTransitions (scopeKind context.scope))
    (calls : List MachineCall) :
    ∃ observed, MachineRun math (.create ref context definition shouldPause) calls observed := by
  induction calls using List.reverseRecOn with
  | nil => exact ⟨_, .start⟩
  | append_singleton calls call ih =>
      obtain ⟨observed, run⟩ := ih
      have invokes : ∃ after, observed.invoke math call = some after := by
        cases call with
        | terminate | cancel | pause | unpause => exact ⟨_, rfl⟩
        | tick realInterval =>
            simp only [ObservedMachine.invoke]
            cases ticked : observed.machine.tick math realInterval with
            | stays | transitions => exact ⟨_, rfl⟩
            | typeError =>
                have sound := sound required.toHasEntries run
                have same := same required.toHasEntries run
                obtain ⟨terminated, absent⟩ :=
                  (sound.tick_eq_typeError_iff math realInterval).mp ticked
                simp only [ActionStateMachine.terminates, Bool.and_eq_true, decide_eq_true_eq]
                  at terminated
                have edge := sound.terminates terminated.2
                rw [same.2] at edge
                have present := required.terminable edge
                rw [← same.1, absent] at present
                cases present
      obtain ⟨after, invoked⟩ := invokes
      exact ⟨after, run.advance trivial invoked⟩

end MachineRun

/-- Whatever is called on a machine whose definition has the required transitions, no
call fails, the reports follow a path of the definition and end once, and statuses are
left by time as soon as their duration has been spent in them without pauses. -/
theorem machine_traces {definition : VirtualActionDefinition} {context : ActionContext}
    (required : definition.HasRequiredTransitions (scopeKind context.scope)) (math : MathLibrary)
    (ref : Nat) (shouldPause : Bool) (calls : List MachineCall) :
    (∃ observed, MachineRun math (.create ref context definition shouldPause) calls observed) ∧
      ∀ observed, MachineRun math (.create ref context definition shouldPause) calls observed →
        observed.FollowsPath definition calls ∧ observed.EndsOnce ∧
          observed.LeavesByTime math definition context.action :=
  ⟨MachineRun.exists_of_required required calls, fun _ run =>
    have follows := MachineRun.follows required.toHasEntries run
    ⟨follows.followsPath, follows.endsOnce,
      (MachineRun.accounts required.toHasEntries run).leavesByTime⟩⟩

/-- An edge action that is terminated on traversal. -/
def edgeTask : VirtualActionDefinition where
  actionType := "noop"
  actionScopes := [.edge]
  transitions :=
    { onInit := .initializing
      onTerminate := some .finished
      initializing := some { durationTime := .seconds 1, next := .running }
      running := some { durationTime := .seconds 5, next := .finished }
      resultDescription := none
      errorDescription := none }

/-- Created while the vehicle is paused, resumed, paused and resumed once more after
half of the first duration, and terminated. -/
theorem machine_traces_edgeTask :
    ∃ observed calls,
      MachineRun axisMath (.create 0 edgeNoop edgeTask true) calls observed ∧
      observed.reports = [some .paused, some .initializing, some .paused, some .initializing,
        some .running, some .finished] ∧
      observed.FollowsPath edgeTask calls ∧ observed.EndsOnce ∧
      observed.LeavesByTime axisMath edgeTask edgeNoop.action := by
  have required : edgeTask.HasRequiredTransitions (scopeKind edgeNoop.scope) :=
    { onInit := rfl
      onTerminate := by decide
      initializing := by decide
      running := by decide
      terminable := fun _ => rfl }
  obtain ⟨observed, run, reported⟩ := MachineRun.exists_of_execute axisMath
    (.create 0 edgeNoop edgeTask true)
    [.tick 1, .unpause, .tick 1, .tick (1 / 2), .pause, .tick 1, .unpause, .tick 1,
      .tick (1 / 2), .terminate, .tick 1, .tick 1]
    (fun observed => decide (observed.reports = [some .paused, some .initializing, some .paused,
      some .initializing, some .running, some .finished])) (by decide +kernel)
  exact ⟨observed, _, run, of_decide_eq_true reported,
    (machine_traces required axisMath 0 true _).2 observed run⟩

end VirtualAgvAdapter

end Vda5050
