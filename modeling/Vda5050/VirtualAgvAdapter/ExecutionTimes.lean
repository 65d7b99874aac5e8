import Vda5050.AgvController.Orders
import Vda5050.Library.Barriers
import Vda5050.VirtualAgvAdapter.Basic
import Mathlib.Tactic.Linarith
import Mathlib.Tactic.Ring

/-!
# Estimated order execution times

The time the virtual AGV needs for an order, estimated from the durations of
the node actions and the lengths of the edges. It is compared with what the
blocking types of the actions imply.
-/

set_option autoImplicit false

namespace Vda5050

namespace VirtualAgvAdapter

open AgvController (getEdgeStartNode getEdgeEndNode)
open Library

variable (math : MathLibrary) (options : VirtualAgvAdapterOptions)

/-! ## Executable orders -/

/-- `isRouteTraversable` -/
def isRouteTraversable (nodes : List Node) (_edges : List Edge) : List ErrorReference :=
  match (nodes.drop 1).find? (·.nodePosition.isNone) with
  | none => []
  | some node =>
      [{ referenceKey := AgvController.refKeyErrorDescriptionDetail
         referenceValue := .str "missing nodePosition" },
        { referenceKey := "nodeId", referenceValue := .str node.nodeId },
        { referenceKey := "nodePosition", referenceValue := .str "undefined" }]

def canExecuteOrder (nodes : List Node) (edges : List Edge) : Bool :=
  (isRouteTraversable nodes edges).isEmpty &&
    nodes.all fun node => node.actions.all fun action =>
      isActionExecutable { action := action, scope := .node node }

/-! ## Durations of actions -/

/-- `_getActionDefinition(action, "node")` -/
def nodeActionDefinition (action : Action) : Option VirtualActionDefinition :=
  actionDefinitions.find? fun definition =>
    definition.actionType = action.actionType && definition.actionScopes.contains .node

/-- The transition defined for a status that has not ended. -/
def transitionOf (transitions : VirtualActionTransitions) : ActionStatus → Option TimedTransition
  | .initializing => transitions.initializing
  | .running => transitions.running
  | .failed | .finished | .paused | .waiting => none

/-- The duration of a transition as a number, which the parameters of an
executable action provide. -/
def transitionDuration (transition : TimedTransition) (action : Action) : Option Rat :=
  match getTransitionDuration transition action with
  | .num value _ => some value
  | _ => none

/-- The loop of `getNodeActionDuration`. `none` stands for a `TypeError`, and for a
walk that does not end. -/
def sumDurations (transitions : VirtualActionTransitions) (action : Action) :
    Nat → ActionStatus → Rat → Option Rat
  | 0, _, _ => none
  | fuel + 1, status, duration =>
      if status.isEnded then some duration
      else do
        let transition ← transitionOf transitions status
        let time ← transitionDuration transition action
        sumDurations transitions action fuel transition.next (duration + time)

/-- `getNodeActionDuration`. A walk that ends visits none of the six statuses twice. -/
def getNodeActionDuration (action : Action) : Option Rat := do
  let definition ← nodeActionDefinition action
  sumDurations definition.transitions action 6 definition.transitions.onInit 0

/-! ## The estimation -/

/-- One step of the loop over the actions of a node, with the
`effectiveActionDuration` as the total and the `nonHardMaxDuration` as the peak. -/
def addAction (state : RunningCost Rat) (action : Action) : Option (RunningCost Rat) := do
  let duration ← getNodeActionDuration action
  if action.blockingType = .hard then
    some { total := state.total + state.peak + duration, peak := 0 }
  else some { state with peak := max state.peak duration }

def addNodeActions (effectiveActionDuration : Rat) (node : Node) : Option Rat := do
  let state ← node.actions.foldlM addAction { total := effectiveActionDuration, peak := 0 }
  some state.total

def effectiveActionDuration (order : Order) : Option Rat := order.nodes.foldlM addNodeActions 0

/-- The time to travel along an edge. The mean speed or time is that of a
distribution given by the options. -/
def edgeTraversalTime (mean : Rat) (order : Order) (currentNodePosition : NodePosition)
    (edge : Edge) : Option Rat := do
  let startNode ← getEdgeStartNode order edge
  let endNode ← getEdgeEndNode order edge
  let startNodePosition := startNode.nodePosition.getD currentNodePosition
  let endNodePosition ← endNode.nodePosition
  let distance := math.sqrt ((endNodePosition.x - startNodePosition.x) ^ 2 +
    (endNodePosition.y - startNodePosition.y) ^ 2)
  some (distance / getTargetSpeed options mean distance edge.maxSpeed)

def addEdge (mean : Rat) (order : Order) (currentNodePosition : NodePosition) (time : Rat)
    (edge : Edge) : Option Rat := do
  let traversalTime ← edgeTraversalTime math options mean order currentNodePosition edge
  some (time + traversalTime)

/-- `_calculateEstimatedOrderExecutionTime`, which is `none` if it throws. -/
def calculateEstimatedOrderExecutionTime (mean : Rat) (order : Order)
    (currentNodePosition : NodePosition) : Option Rat := do
  let actionDuration ← effectiveActionDuration order
  let traversalTime ←
    order.edges.foldlM (addEdge math options mean order currentNodePosition) 0
  some (traversalTime + actionDuration)

/-! ## The blocking rules -/

def timeIn (transition : Option TimedTransition) (action : Action) : Rat :=
  (transition.bind (transitionDuration · action)).getD 0

/-- The time an action is `INITIALIZING` and `RUNNING`. -/
def actionDuration (action : Action) : Rat :=
  (nodeActionDefinition action).elim 0 fun definition =>
    timeIn definition.transitions.initializing action +
      timeIn definition.transitions.running action

def isHard (action : Action) : Bool := action.blockingType = .hard

/-- The longest `SOFT` action behind the last `HARD` action of a node. -/
def waitingTime (node : Node) : Rat :=
  maxCost actionDuration ((lastStretch isHard node.actions).filter (·.blockingType = .soft))

/-- How long the actions of a node keep the AGV, by their blocking types. -/
def nodeDuration (node : Node) : Rat :=
  ((node.actions.filter isHard).map actionDuration).sum +
    ((frontStretches isHard node.actions).map (maxCost actionDuration)).sum + waitingTime node

def ruledDuration (order : Order) : Rat := (order.nodes.map nodeDuration).sum

/-- What actions of negative duration in front of a `HARD` action lack to 0. -/
def negativeTime (node : Node) : Rat :=
  ((frontStretches isHard node.actions).map (deficit actionDuration)).sum

/-! ## Durations of executable actions -/

variable {action : Action}

/-- A duration given by an optional number is a number. -/
private theorem transitionDuration_parameter {key : String} {default : Rat} {next : ActionStatus}
    (holds : ParameterConstraint.optionalNumber.holds (getParameter action key) = true) :
    ∃ time, transitionDuration { durationTime := .parameter key default, next := next } action =
      some time := by
  cases given : getParameter action key with
  | none => exact ⟨default, by simp [transitionDuration, getTransitionDuration, given]⟩
  | some value =>
      rw [given] at holds
      cases value with
      | num value text =>
          exact ⟨value, by simp [transitionDuration, getTransitionDuration, given]⟩
      | null | bool | str | arr | obj => cases holds

/-- A duration that is taken into account if it is defined. -/
def IsTimed (definition : VirtualActionDefinition) (action : Action) : Prop :=
  ∀ transition, definition.transitions.initializing = some transition ∨
      definition.transitions.running = some transition →
    ∃ time, transitionDuration transition action = some time

/-- An action ends after it has been `INITIALIZING` and `RUNNING`, as far as
these are defined for it. -/
structure Straight (transitions : VirtualActionTransitions) : Prop where
  starts : transitions.onInit =
    if transitions.initializing.isSome then .initializing
    else if transitions.running.isSome then .running else .finished
  runs : ∀ transition ∈ transitions.initializing, transition.next = .running ∧
    transitions.running.isSome
  ends : ∀ transition ∈ transitions.running, transition.next = .finished

private theorem straight_of_mem {definition : VirtualActionDefinition}
    (member : definition ∈ actionDefinitions) : Straight definition.transitions := by
  simp only [actionDefinitions, List.mem_cons, List.not_mem_nil, or_false] at member
  rcases member with rfl | rfl | rfl | rfl | rfl | rfl | rfl | rfl | rfl <;>
    exact ⟨rfl, by simp, by simp⟩

/-- Durations are constant, or given by an optional number. -/
private theorem timed_of_mem {definition : VirtualActionDefinition}
    (member : definition ∈ actionDefinitions) (valid : invalidParameters definition action = []) :
    IsTimed definition action := by
  have constrained : ("duration", ParameterConstraint.optionalNumber) ∈
      definition.actionParameterConstraints →
      ∀ default next, ∃ time, transitionDuration
        { durationTime := .parameter "duration" default, next := next } action = some time := by
    intro listed default next
    refine transitionDuration_parameter ?_
    by_contra violated
    have invalid : "duration" ∈ invalidParameters definition action :=
      List.mem_map.mpr ⟨_, List.mem_filter.mpr ⟨listed, by simpa using violated⟩, rfl⟩
    rw [valid] at invalid
    cases invalid
  have constant : ∀ (value : Rat) (next : ActionStatus), ∃ time,
      transitionDuration { durationTime := .seconds value, next := next } action = some time :=
    fun value _ => ⟨value, rfl⟩
  intro transition defined
  simp only [actionDefinitions, List.mem_cons, List.not_mem_nil, or_false] at member
  rcases member with rfl | rfl | rfl | rfl | rfl | rfl | rfl | rfl | rfl <;>
    simp only [Option.some.injEq, reduceCtorEq, false_or, or_false] at defined
  · subst defined
    exact constrained (by simp) _ _
  · rcases defined with rfl | rfl
    · exact constant _ _
    · exact constrained (by simp [loadConstraints]) _ _
  · rcases defined with rfl | rfl
    · exact constant _ _
    · exact constrained (by simp [loadConstraints]) _ _
  · subst defined
    exact constrained (by simp) _ _
  · subst defined
    exact constrained (by simp) _ _

/-- The walk through the statuses adds up what is defined for them. -/
private theorem sumDurations_straight {definition : VirtualActionDefinition}
    (straight : Straight definition.transitions) (timed : IsTimed definition action) (fuel : Nat) :
    sumDurations definition.transitions action (fuel + 3) definition.transitions.onInit 0 =
      some (timeIn definition.transitions.initializing action +
        timeIn definition.transitions.running action) := by
  obtain ⟨starts, runs, ends⟩ := straight
  cases initializing : definition.transitions.initializing with
  | none =>
      cases running : definition.transitions.running with
      | none =>
          rw [starts, initializing, running]
          simp [sumDurations, ActionStatus.isEnded, timeIn]
      | some transition =>
          obtain ⟨time, known⟩ := timed transition (.inr running)
          have next := ends transition running
          rw [starts, initializing, running]
          simp [sumDurations, ActionStatus.isEnded, timeIn, transitionOf, running, known, next]
  | some first =>
      obtain ⟨next, defined⟩ := runs first initializing
      obtain ⟨second, running⟩ := Option.isSome_iff_exists.mp defined
      obtain ⟨firstTime, firstKnown⟩ := timed first (.inl initializing)
      obtain ⟨secondTime, secondKnown⟩ := timed second (.inr running)
      have last := ends second running
      rw [starts, initializing, running]
      simp [sumDurations, ActionStatus.isEnded, timeIn, transitionOf, initializing, running,
        firstKnown, secondKnown, next, last]

/-- The duration of an executable node action. -/
private theorem getNodeActionDuration_eq {node : Node}
    (executable : isActionExecutable { action := action, scope := .node node } = true) :
    getNodeActionDuration action = some (actionDuration action) := by
  unfold isActionExecutable at executable
  cases found : nodeActionDefinition action with
  | none =>
      have missing : getActionDefinition action (.node node) = none := found
      simp [missing] at executable
  | some definition =>
      have defined : getActionDefinition action (.node node) = some definition := found
      have valid : invalidParameters definition action = [] := by
        simpa [defined, List.isEmpty_iff] using executable
      have member : definition ∈ actionDefinitions := List.mem_of_find?_eq_some found
      unfold getNodeActionDuration actionDuration
      rw [found, Option.elim_some]
      exact sumDurations_straight (straight_of_mem member) (timed_of_mem member valid) 3

/-! ## The estimated time of an order -/

/-- The loop over the actions is a running cost with `HARD` actions as barriers. -/
private theorem foldlM_addAction {actions : List Action}
    (known : ∀ action ∈ actions, getNodeActionDuration action = some (actionDuration action))
    (state : RunningCost Rat) :
    actions.foldlM addAction state =
      some (actions.foldl (RunningCost.add isHard actionDuration) state) := by
  induction actions generalizing state with
  | nil => rfl
  | cons action actions ih =>
      have added : addAction state action =
          some (RunningCost.add isHard actionDuration state action) := by
        unfold addAction RunningCost.add isHard
        rw [known action List.mem_cons_self]
        by_cases hard : action.blockingType = .hard <;> simp [hard]
      rw [List.foldlM_cons, added, List.foldl_cons]
      exact ih (fun other member => known other (List.mem_cons_of_mem _ member)) _

/-- What a node adds to the estimation. -/
private theorem addNodeActions_eq {node : Node}
    (known : ∀ action ∈ node.actions, getNodeActionDuration action = some (actionDuration action))
    (time : Rat) :
    addNodeActions time node =
      some (time + (nodeDuration node - waitingTime node + negativeTime node)) := by
  unfold addNodeActions nodeDuration negativeTime
  rw [foldlM_addAction known, Option.bind_eq_bind, Option.bind_some, total_eq, add_sub_cancel_right]

private theorem foldlM_addNodeActions {nodes : List Node}
    (known : ∀ node ∈ nodes, ∀ action ∈ node.actions,
      getNodeActionDuration action = some (actionDuration action)) (time : Rat) :
    nodes.foldlM addNodeActions time =
      some (time + ((nodes.map nodeDuration).sum - (nodes.map waitingTime).sum +
        (nodes.map negativeTime).sum)) := by
  induction nodes generalizing time with
  | nil => simp
  | cons node nodes ih =>
      rw [List.foldlM_cons, addNodeActions_eq (known node List.mem_cons_self), Option.bind_eq_bind,
        Option.bind_some, ih fun other member => known other (List.mem_cons_of_mem _ member)]
      simp only [List.map_cons, List.sum_cons]
      congr 1
      ring

/-- The actions of an executable order are executable. -/
private theorem executable_of_canExecuteOrder {order : Order}
    (admitted : canExecuteOrder order.nodes order.edges = true) :
    ∀ node ∈ order.nodes, ∀ action ∈ node.actions,
      getNodeActionDuration action = some (actionDuration action) := by
  intro node member action listed
  unfold canExecuteOrder at admitted
  rw [Bool.and_eq_true, List.all_eq_true] at admitted
  exact getNodeActionDuration_eq (List.all_eq_true.mp (admitted.2 node member) action listed)

/-- The actions of an executable order are estimated as the blocking types imply if
and only if no node makes the AGV wait for `SOFT` actions at its end, apart from
what negative durations make up for. -/
theorem estimatedActionTime_iff (mean : Rat) (order : Order) (currentNodePosition : NodePosition)
    (admitted : canExecuteOrder order.nodes order.edges = true) :
    ∃ actionTime, effectiveActionDuration order = some actionTime ∧
      calculateEstimatedOrderExecutionTime math options mean order currentNodePosition =
          (order.edges.foldlM (addEdge math options mean order currentNodePosition) 0).map
            (· + actionTime) ∧
        (actionTime = ruledDuration order ↔
          (order.nodes.map waitingTime).sum = (order.nodes.map negativeTime).sum) := by
  have known := executable_of_canExecuteOrder admitted
  have effective : effectiveActionDuration order = some (ruledDuration order -
      (order.nodes.map waitingTime).sum + (order.nodes.map negativeTime).sum) := by
    unfold effectiveActionDuration ruledDuration
    rw [foldlM_addNodeActions known, zero_add]
  refine ⟨_, effective, ?_, ?_⟩
  · unfold calculateEstimatedOrderExecutionTime
    rw [effective]
    cases order.edges.foldlM (addEdge math options mean order currentNodePosition) 0 <;> rfl
  · constructor
    · intro same
      linarith
    · intro same
      rw [same]
      ring

/-- A node with actions of the given blocking types. -/
def noopNode (nodeId : String) (sequenceId : Nat) (blockingTypes : List BlockingType) : Node where
  nodeId := nodeId
  sequenceId := sequenceId
  released := true
  nodePosition := some { x := sequenceId, y := 0, mapId := "local" }
  actions := blockingTypes.zipIdx.map fun entry =>
    { actionId := s!"{nodeId}{entry.2}", actionType := "noop", blockingType := entry.1 }

/-- An order of a single node with one action. -/
def nodeOrder (blockingType : BlockingType) : Order where
  orderId := "order"
  orderUpdateId := 0
  nodes := [noopNode "node" 0 [blockingType]]
  edges := []

def origin : NodePosition where
  x := 0
  y := 0
  mapId := "local"

/-- The AGV waits for the `SOFT` actions no longer than for the `HARD` ones behind them. -/
def hardOrder : Order where
  orderId := "order"
  orderUpdateId := 0
  nodes :=
    [noopNode "first" 0 [.none, .soft, .hard], noopNode "second" 2 [.soft, .hard, .none, .hard],
      noopNode "third" 4 [.none]]
  edges :=
    [{ edgeId := "there", sequenceId := 1, released := true, startNodeId := "first",
       endNodeId := "second", actions := [] },
      { edgeId := "on", sequenceId := 3, released := true, startNodeId := "second",
        endNodeId := "third", actions := [] }]

theorem estimatedActionTime_of_hard :
    effectiveActionDuration hardOrder = some (ruledDuration hardOrder) ∧
      0 < ruledDuration hardOrder := by
  refine ⟨?_, by decide +kernel⟩
  obtain ⟨actionTime, effective, -, ruled⟩ := estimatedActionTime_iff
    { sqrt := id, cos := id, sin := id, atan2 := fun _ => id, toNumber := fun _ => none
      numberText := fun _ => "" } {} 0 hardOrder origin (by decide +kernel)
  rw [effective, ruled.mpr (by decide +kernel)]

/-- The AGV waits five seconds for the action, which the estimation leaves out. -/
theorem not_estimatedActionTime_of_soft :
    ¬ ∀ order : Order, canExecuteOrder order.nodes order.edges = true →
      effectiveActionDuration order = some (ruledDuration order) := by
  intro ruled
  have waits := ruled (nodeOrder .soft) (by decide +kernel)
  revert waits
  decide +kernel

end VirtualAgvAdapter

end Vda5050
