import Mathlib.Algebra.Order.Ring.Unbundled.Rat
import Vda5050.AgvController.Basic

/-!
# Actions of the virtual AGV

The action definitions the virtual AGV supports, with their parameter
constraints, the check made before an action is executed, and the status
transitions an action goes through.
-/

set_option autoImplicit false

namespace Vda5050

namespace VirtualAgvAdapter

/-- `ActionScope`, without the node or edge the action belongs to. -/
inductive ScopeKind where
  | instant
  | node
  | edge
  deriving DecidableEq, Repr

def scopeKind : ActionScope → ScopeKind
  | .instant => .instant
  | .node _ => .node
  | .edge _ => .edge

/-! ## Library functions -/

/-- The functions of the language that have no exact rational counterpart. The
number a value other than a number is converted to is `none` if it is `NaN`. -/
structure MathLibrary where
  sqrt : Rat → Rat
  cos : Rat → Rat
  sin : Rat → Rat
  atan2 : Rat → Rat → Rat
  toNumber : Json → Option Rat
  numberText : Rat → String

/-! ## Action definitions -/

/-- The constraints put on the values of action parameters. -/
inductive ParameterConstraint where
  | optionalNumber
  | number
  | string
  | floorStation
  | epalLoad
  | array
  deriving DecidableEq, Repr

/-- The check of a value. Only strings have a method `startsWith`: it throws for any other
value that is not falsy. -/
def ParameterConstraint.check : ParameterConstraint → Option Json → Except String Bool
  | .optionalNumber, none => .ok true
  | .optionalNumber, some (.num _ _) | .number, some (.num _ _) | .string, some (.str _)
  | .array, some (.arr _) => .ok true
  | .floorStation, some (.str value) => .ok ("floor".toList.isPrefixOf value.toList)
  | .floorStation, some (.num value _) =>
      if value = 0 then .ok false else .error "value.startsWith is not a function"
  | .floorStation, some (.bool true) | .floorStation, some (.arr _)
  | .floorStation, some (.obj _) => .error "value.startsWith is not a function"
  | .epalLoad, some (.str value) => .ok (value = "EPAL")
  | _, _ => .ok false

/-- The value passes the check. -/
def ParameterConstraint.holds (constraint : ParameterConstraint) (value : Option Json) : Bool :=
  match constraint.check value with
  | .ok passed => passed
  | .error _ => false

/-- The checks made immediately before an action is executed. -/
inductive ExecutableCheck where
  | noLoad
  | hasLoad
  | notPaused
  | paused
  | mayStartCharging
  | charging
  deriving DecidableEq, Repr

/-- What happens on entry of the status `FINISHED`. -/
inductive FinishedEffect where
  | none
  | loadAdded
  | loadRemoved
  | initPosition
  | startPause
  | stopPause
  | startCharging
  | stopCharging
  deriving DecidableEq, Repr

/-- The time to stay in a status, possibly given by an action parameter. -/
inductive DurationTime where
  | seconds (value : Rat)
  | parameter (key : String) (default : Rat)
  deriving DecidableEq, Repr

/-- A status that is left after some time. -/
structure TimedTransition where
  durationTime : DurationTime
  next : ActionStatus
  deriving DecidableEq, Repr

/-- `VirtualActionTransitions`. `ON_CANCEL` has no effects of its own. -/
structure VirtualActionTransitions where
  onInit : ActionStatus
  onCancel : Bool := false
  onTerminate : Option ActionStatus := none
  initializing : Option TimedTransition := none
  running : Option TimedTransition := none
  resultDescription : Option String
  finishedEffect : FinishedEffect := .none
  errorDescription : Option String
  deriving DecidableEq, Repr

structure VirtualActionDefinition where
  actionType : String
  actionScopes : List ScopeKind
  actionParameterConstraints : List (String × ParameterConstraint) := []
  actionExecutable : Option ExecutableCheck := none
  transitions : VirtualActionTransitions
  deriving DecidableEq, Repr

def loadConstraints : List (String × ParameterConstraint) :=
  [("stationType", .floorStation), ("loadType", .epalLoad), ("duration", .optionalNumber)]

/-- `actionDefinitions`. The result of `orderExecutionTime` is calculated. -/
def actionDefinitions : List VirtualActionDefinition :=
  [{ actionType := "noop"
     actionScopes := [.instant, .node, .edge]
     actionParameterConstraints := [("duration", .optionalNumber)]
     transitions :=
       { onInit := .running
         onCancel := true
         running := some { durationTime := .parameter "duration" 5, next := .finished }
         resultDescription := some "noop action finished"
         errorDescription := some "noop action failed" } },
   { actionType := "pick"
     actionScopes := [.node]
     actionParameterConstraints := loadConstraints
     actionExecutable := some .noLoad
     transitions :=
       { onInit := .initializing
         onCancel := true
         initializing := some { durationTime := .seconds 1, next := .running }
         running := some { durationTime := .parameter "duration" 5, next := .finished }
         resultDescription := some "pick action finished"
         finishedEffect := .loadAdded
         errorDescription := some "pick action failed" } },
   { actionType := "drop"
     actionScopes := [.node]
     actionParameterConstraints := loadConstraints
     actionExecutable := some .hasLoad
     transitions :=
       { onInit := .initializing
         onCancel := true
         initializing := some { durationTime := .seconds 1, next := .running }
         running := some { durationTime := .parameter "duration" 5, next := .finished }
         resultDescription := some "drop action finished"
         finishedEffect := .loadRemoved
         errorDescription := some "drop action failed" } },
   { actionType := "initPosition"
     actionScopes := [.instant, .node]
     actionParameterConstraints :=
       [("x", .number), ("y", .number), ("theta", .number), ("mapId", .string),
         ("lastNodeId", .string), ("lastNodeSequenceId", .optionalNumber)]
     transitions :=
       { onInit := .finished
         onCancel := true
         resultDescription := some "Position initialized"
         finishedEffect := .initPosition
         errorDescription := some "initPosition action failed" } },
   { actionType := "startPause"
     actionScopes := [.instant]
     actionExecutable := some .notPaused
     transitions :=
       { onInit := .finished
         resultDescription := some "Paused"
         finishedEffect := .startPause
         errorDescription := some "startPause action failed" } },
   { actionType := "stopPause"
     actionScopes := [.instant]
     actionExecutable := some .paused
     transitions :=
       { onInit := .finished
         resultDescription := some "Unpaused"
         finishedEffect := .stopPause
         errorDescription := some "stopPause action failed" } },
   { actionType := "startCharging"
     actionScopes := [.instant, .node]
     actionParameterConstraints := [("duration", .optionalNumber)]
     actionExecutable := some .mayStartCharging
     transitions :=
       { onInit := .running
         onCancel := true
         running := some { durationTime := .parameter "duration" 1, next := .finished }
         resultDescription := some "Started charging"
         finishedEffect := .startCharging
         errorDescription := some "startCharging action failed" } },
   { actionType := "stopCharging"
     actionScopes := [.instant, .node]
     actionParameterConstraints := [("duration", .optionalNumber)]
     actionExecutable := some .charging
     transitions :=
       { onInit := .running
         onCancel := true
         running := some { durationTime := .parameter "duration" 1, next := .finished }
         resultDescription := some "Stopped charging"
         finishedEffect := .stopCharging
         errorDescription := some "startCharging action failed" } },
   { actionType := "orderExecutionTime"
     actionScopes := [.instant]
     actionParameterConstraints := [("orders", .array)]
     transitions :=
       { onInit := .finished
         resultDescription := none
         errorDescription := some "orderExecutionTime action failed" } }]

/-- `_getActionDefinition` -/
def getActionDefinition (action : Action) (scope : ActionScope) : Option VirtualActionDefinition :=
  actionDefinitions.find? fun definition =>
    definition.actionType = action.actionType &&
      definition.actionScopes.contains (scopeKind scope)

def getParameter (action : Action) (key : String) : Option Json :=
  (action.actionParameters.find? (·.key = key)).map (·.value)

/-- The keys of the parameters that do not pass the check. -/
def invalidParameters (definition : VirtualActionDefinition) (action : Action) : List String :=
  (definition.actionParameterConstraints.filter fun entry =>
    !entry.2.holds (getParameter action entry.1)).map (·.1)

/-- `isActionExecutable` reports no error. -/
def isActionExecutable (context : ActionContext) : Bool :=
  match getActionDefinition context.action context.scope with
  | none => false
  | some definition => (invalidParameters definition context.action).isEmpty

/-! ## Action state machines -/

/-- `VirtualActionStateMachine`. `ref` is the identity of the machine and of the
context it is created with. A machine is not advanced any more if
`shouldTerminate` and `shouldCancel` are `none`. -/
structure ActionStateMachine where
  ref : Nat
  actionContext : ActionContext
  actionDefinition : VirtualActionDefinition
  actionStatus : Option ActionStatus := none
  actionStatusOnPause : Option ActionStatus := none
  shouldTerminate : Option Bool := some false
  shouldCancel : Option Bool := some false
  shouldPause : Bool
  statusDurationTimes : List (ActionStatus × Rat) := []
  deriving DecidableEq, Repr

/-- `getTransitionDuration` for a timed status. -/
def getTransitionDuration (transition : TimedTransition) (action : Action) : Json :=
  match transition.durationTime with
  | .seconds value => .num value ""
  | .parameter key default => (getParameter action key).getD (.num default "")

/-- `duration >= transitionDuration` -/
def isElapsed (math : MathLibrary) (duration : Rat) : Json → Bool
  | .num value _ => value ≤ duration
  | value => (math.toNumber value).any (· ≤ duration)

/-- What the tick of a machine leads to. -/
inductive TickOutcome where
  | stays (asm : ActionStateMachine)
  | transitions (asm : ActionStateMachine) (actionStatus : Option ActionStatus)
  | typeError
  deriving DecidableEq, Repr

namespace ActionStateMachine

variable (asm : ActionStateMachine)

def isActive : Bool := asm.shouldTerminate.isSome && asm.shouldCancel.isSome

/-- The timed transition of a status. `FINISHED` and `FAILED` have none. -/
def timedTransition : ActionStatus → Option (Option TimedTransition)
  | .initializing => asm.actionDefinition.transitions.initializing.map some
  | .running => asm.actionDefinition.transitions.running.map some
  | .finished | .failed => some none
  | .paused | .waiting => none

/-- The last part of `tick`: let the time of a status pass. -/
def passTime (math : MathLibrary) (actionStatus : ActionStatus) (realInterval : Rat) : TickOutcome :=
  match asm.timedTransition actionStatus with
  | none => .typeError
  | some transition =>
      let duration := (asm.statusDurationTimes.lookup actionStatus).getD 0 + realInterval
      match transition with
      | some timed =>
          if isElapsed math duration (getTransitionDuration timed asm.actionContext.action) then
            .transitions
              { asm with statusDurationTimes := setEntry actionStatus 0 asm.statusDurationTimes }
              (some timed.next)
          else
            .stays
              { asm with
                statusDurationTimes := setEntry actionStatus duration asm.statusDurationTimes }
      | none =>
          .stays
            { asm with
              statusDurationTimes := setEntry actionStatus duration asm.statusDurationTimes }

/-- `tick`, up to the transition it leads to. -/
def tick (math : MathLibrary) (realInterval : Rat) : TickOutcome :=
  let transitions := asm.actionDefinition.transitions
  if !asm.isActive then .stays asm
  else if asm.shouldPause && asm.actionStatus ≠ some .paused then
    .transitions { asm with actionStatusOnPause := some (asm.actionStatus.getD transitions.onInit) }
      (some .paused)
  else if !asm.shouldPause && asm.actionStatus = some .paused then
    .transitions { asm with actionStatusOnPause := none } asm.actionStatusOnPause
  else
    match asm.actionStatus with
    | none => .transitions asm (some transitions.onInit)
    | some actionStatus =>
        if asm.shouldCancel = some true && transitions.onCancel then
          .transitions asm (some .failed)
        else if asm.shouldTerminate = some true then
          match transitions.onTerminate with
          | none => .typeError
          | some next => .transitions asm (some next)
        else if actionStatus = .paused then .stays asm
        else asm.passTime math actionStatus realInterval

/-- `matches` -/
def isMatch (actionId : String) (scope : ActionScope) : Bool :=
  asm.actionContext.action.actionId = actionId &&
    scopeKind asm.actionContext.scope = scopeKind scope

def terminate : ActionStateMachine :=
  if scopeKind asm.actionContext.scope ≠ .edge || asm.shouldTerminate ≠ some false then asm
  else { asm with shouldTerminate := some true }

def cancel : ActionStateMachine :=
  if scopeKind asm.actionContext.scope = .instant || asm.shouldCancel ≠ some false ||
      !asm.actionDefinition.transitions.onCancel then asm
  else { asm with shouldCancel := some true }

def pause : ActionStateMachine := { asm with shouldPause := true }

def unpause : ActionStateMachine := { asm with shouldPause := false }

end ActionStateMachine

end VirtualAgvAdapter

end Vda5050
