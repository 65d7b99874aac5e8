import Vda5050.VirtualAgvAdapter.ExecutionTimes

/-!
# What the virtual AGV answers

The checks the virtual AGV makes on behalf of the controller, before an order or an instant
action is accepted, with the references they report.
-/

set_option autoImplicit false

namespace Vda5050

open AgvController (AdapterAnswers refKeyErrorDescriptionDetail textReference)

namespace VirtualAgvAdapter

/-! ## Executable actions -/

/-- The references to the parameters that violate their constraint, unless a check throws. -/
def parameterErrors (action : Action) :
    List (String × ParameterConstraint) → Except String (List ErrorReference)
  | [] => .ok []
  | (key, constraint) :: constraints => do
      let passed ← constraint.check (getParameter action key)
      let errorRefs ← parameterErrors action constraints
      return if passed then errorRefs else textReference "actionParameter" key :: errorRefs

/-- `isActionExecutable`, with the references it reports. -/
def checkActionExecutable (context : ActionContext) : Except String (List ErrorReference) :=
  match getActionDefinition context.action context.scope with
  | none => .ok [textReference refKeyErrorDescriptionDetail "not supported"]
  | some definition => do
      let errorRefs ← parameterErrors context.action definition.actionParameterConstraints
      return if errorRefs.isEmpty then []
        else errorRefs ++ [textReference refKeyErrorDescriptionDetail "invalid actionParameter"]

private theorem parameterErrors_eq_nil_iff (action : Action)
    (constraints : List (String × ParameterConstraint)) :
    parameterErrors action constraints = .ok [] ↔
      ∀ entry ∈ constraints, entry.2.holds (getParameter action entry.1) = true := by
  induction constraints with
  | nil => simp [parameterErrors]
  | cons entry constraints ih =>
      obtain ⟨key, constraint⟩ := entry
      rw [List.forall_mem_cons, ← ih]
      simp only [parameterErrors, ParameterConstraint.holds]
      cases checked : constraint.check (getParameter action key) with
      | error message => simp [bind, Except.bind]
      | ok passed =>
          cases rest : parameterErrors action constraints with
          | error message => simp [bind, Except.bind]
          | ok errorRefs => cases passed <;> simp [bind, Except.bind, pure, Except.pure]

theorem checkActionExecutable_eq_nil_iff (context : ActionContext) :
    checkActionExecutable context = .ok [] ↔ isActionExecutable context = true := by
  unfold checkActionExecutable isActionExecutable
  cases getActionDefinition context.action context.scope with
  | none => simp
  | some definition =>
      have executable : (invalidParameters definition context.action).isEmpty = true ↔
          parameterErrors context.action definition.actionParameterConstraints = .ok [] := by
        rw [parameterErrors_eq_nil_iff]
        simp [invalidParameters]
      dsimp only
      rw [executable]
      cases parameterErrors context.action definition.actionParameterConstraints with
      | error message => simp [bind, Except.bind]
      | ok errorRefs => cases errorRefs <;> simp [bind, Except.bind, pure, Except.pure]

/-- Only the check of a floor station throws. -/
private theorem exists_parameterErrors (action : Action)
    {constraints : List (String × ParameterConstraint)}
    (harmless : ∀ entry ∈ constraints, entry.2 ≠ .floorStation) :
    ∃ errorRefs, parameterErrors action constraints = .ok errorRefs := by
  induction constraints with
  | nil => exact ⟨[], rfl⟩
  | cons entry constraints ih =>
      obtain ⟨key, constraint⟩ := entry
      rw [List.forall_mem_cons] at harmless
      obtain ⟨errorRefs, rest⟩ := ih harmless.2
      have checked : ∃ passed, constraint.check (getParameter action key) = .ok passed := by
        unfold ParameterConstraint.check
        split
        all_goals first
          | exact ⟨_, rfl⟩
          | exact absurd rfl harmless.1
      obtain ⟨passed, checked⟩ := checked
      exact ⟨_, by simp only [parameterErrors, checked, rest]; rfl⟩

/-- The check of an instant action never throws. -/
theorem exists_checkActionExecutable (action : Action) :
    ∃ errorRefs, checkActionExecutable { action, scope := .instant } = .ok errorRefs := by
  have harmless : ∀ definition ∈ actionDefinitions, .instant ∈ definition.actionScopes →
      ∀ entry ∈ definition.actionParameterConstraints, entry.2 ≠ .floorStation := by
    decide
  unfold checkActionExecutable
  cases defined : getActionDefinition action .instant with
  | none => exact ⟨_, rfl⟩
  | some definition =>
      have listed := List.find?_some defined
      rw [Bool.and_eq_true, List.contains_iff_mem] at listed
      obtain ⟨errorRefs, reported⟩ := exists_parameterErrors action
        (harmless definition (List.mem_of_find?_eq_some defined) listed.2)
      exact ⟨_, by simp only [reported]; rfl⟩

/-- The checks of an order, one context after another up to the first that is not executable. -/
def checkActionsExecutable : List ActionContext → Except String (List ErrorReference)
  | [] => .ok []
  | context :: contexts => do
      let errorRefs ← checkActionExecutable context
      if errorRefs.isEmpty then checkActionsExecutable contexts else return errorRefs

/-! ## Deviation from a node -/

/-- The tolerances of `VirtualAgvAdapterOptions`, used where a node allows no deviation. -/
structure DeviationTolerances where
  agvNormalDeviationXyTolerance : Rat := 1 / 2
  agvNormalDeviationThetaTolerance : Rat := 349066 / 1000000
  deriving DecidableEq, Repr

/-- `allowedDeviation || tolerance` -/
def allowedDeviation (allowed : Option Rat) (tolerance : Rat) : Rat :=
  (allowed.filter (· ≠ 0)).getD tolerance

variable (math : MathLibrary) (tolerances : DeviationTolerances) (adapter : VirtualAgvAdapter)

def mapErrors (node : Node) (position : NodePosition) : List ErrorReference :=
  if position.mapId ≠ adapter.vehicleState.position.mapId then
    [textReference "nodeId" node.nodeId,
      textReference "nodePosition.mapId" adapter.vehicleState.position.mapId]
  else []

def deviationXyErrors (position : NodePosition) : List ErrorReference :=
  let vehicle := adapter.vehicleState.position
  let allowedXy :=
    allowedDeviation position.allowedDeviationXY tolerances.agvNormalDeviationXyTolerance
  if (vehicle.x - position.x) ^ 2 + (vehicle.y - position.y) ^ 2 > allowedXy ^ 2 then
    [textReference "nodePosition.allowedDeviationXY" (math.numberText allowedXy)]
  else []

/-- The vehicle plans its path by itself if no orientation is given. -/
def deviationThetaErrors (position : NodePosition) : List ErrorReference :=
  match position.theta with
  | none => []
  | some theta =>
      let allowedTheta :=
        allowedDeviation position.allowedDeviationTheta tolerances.agvNormalDeviationThetaTolerance
      if |adapter.vehicleState.position.theta - theta| > allowedTheta then
        [textReference "nodePosition.allowedDeviationTheta" (math.numberText allowedTheta)]
      else []

/-- `isNodeWithinDeviationRange` -/
def isNodeWithinDeviationRange (node : Node) : List ErrorReference :=
  match node.nodePosition with
  | none => []
  | some position =>
      adapter.mapErrors node position ++ adapter.deviationXyErrors math tolerances position ++
        adapter.deviationThetaErrors math tolerances position

/-! ## Answers -/

/-- The answers of the virtual AGV in its current state, as long as none of its checks throws.
It calculates no trajectories. -/
def answers : AdapterAnswers where
  isActionExecutable context :=
    match checkActionExecutable context with
    | .ok errorRefs => errorRefs
    | .error message => [textReference refKeyErrorDescriptionDetail message]
  isNodeWithinDeviationRange := adapter.isNodeWithinDeviationRange math tolerances
  isRouteTraversable := isRouteTraversable

end VirtualAgvAdapter

end Vda5050
