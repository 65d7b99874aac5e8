import Vda5050.AgvController.Bookkeeping
import Vda5050.AgvController.Validation
import Mathlib.Data.List.Chain

/-!
# Stitching

An order stitched to the current one replaces the horizon. Nodes, edges and
their states are cut at horizon indices of their own, which agree as long as
the orders are well-formed and the states describe what is left of the
current order.
-/

set_option autoImplicit false

namespace Vda5050

open AgvController

/-! ## Consistency of orders and states -/

/-- What the constraints on an order look at in a node. -/
def Node.place (node : Node) : String × Nat × Bool :=
  (node.nodeId, node.sequenceId, node.released)

/-- The state of an edge, without the trajectory it has been given. -/
def Edge.bareState (edge : Edge) : EdgeState where
  edgeId := edge.edgeId
  sequenceId := edge.sequenceId
  released := edge.released
  edgeDescription := edge.edgeDescription

def EdgeState.bare (state : EdgeState) : EdgeState := { state with trajectory := none }

namespace AgvController

/-- The node and edge states are those of the current order behind its first
`traversed` nodes, which are released, and the edges leading to them. -/
structure Describes (state : State) (order : Order) (traversed : Nat) : Prop where
  bound : traversed ≤ (order.nodes.filter (·.released)).length
  nodeStates : state.nodeStates = getNodeStates (order.nodes.drop traversed)
  edgeStates : state.edgeStates.map EdgeState.bare =
    (order.edges.drop (traversed - 1)).map Edge.bareState

def orderActionStates (agv : AgvController) : List ActionState :=
  agv.currentState.actionStates.filter fun state => !agv.isInstantActionState state

/-- The order is well-formed, its nodes and edges behind the traversed ones
are those reported, and so are the actions of its released nodes and edges. -/
structure Aligned (agv : AgvController) (order : Order) (traversed : Nat) : Prop where
  wellFormed : WellFormed order
  describes : Describes agv.currentState order traversed
  actionStates : (agv.orderActionStates.map (·.actionId)).Perm (actionIds order.releasedActions)

/-- The released nodes and edges of the order are the first ones of the next,
where actions may have been added to the last of these nodes. -/
structure Extends (order next : Order) : Prop where
  nodes : ∃ before baseEnd actions added,
    order.nodes.filter (·.released) = before ++ [baseEnd] ∧
      next.nodes.filter (·.released) =
        before ++ { baseEnd with actions := baseEnd.actions ++ actions } :: added
  edges : ∃ added, next.edges.filter (·.released) = order.edges.filter (·.released) ++ added

/-! ## The end of the base -/

/-- An order cut behind the end of its base. -/
structure Cut (order : Order) (before : List Node) (baseEnd : Node) (horizon : List Node)
    (baseEdges horizonEdges : List Edge) : Prop where
  nodes : order.nodes = before ++ baseEnd :: horizon
  edges : order.edges = baseEdges ++ horizonEdges
  lengths : baseEdges.length = before.length
  beforeReleased : ∀ node ∈ before, node.released
  endReleased : baseEnd.released
  horizon : ∀ node ∈ horizon, node.released = false
  baseEdges : ∀ edge ∈ baseEdges, edge.released
  horizonEdges : ∀ edge ∈ horizonEdges, edge.released = false

theorem WellFormed.cut {order : Order} (wellFormed : WellFormed order) :
    ∃ before baseEnd horizon baseEdges horizonEdges,
      Cut order before baseEnd horizon baseEdges horizonEdges := by
  obtain ⟨base, horizon, split, inBase, inHorizon⟩ := wellFormed.baseNodes
  obtain ⟨firstNode, head, firstReleased, -⟩ := wellFormed.firstNode
  have nonempty : base ≠ [] := by
    rintro rfl
    rw [split, List.nil_append] at head
    have unreleased := inHorizon firstNode (List.mem_of_head? head)
    simp [firstReleased] at unreleased
  obtain ⟨before, baseEnd, rfl⟩ := List.eq_nil_or_concat' base |>.resolve_left nonempty
  have flags := wellFormed.toFramed.wellFormed_iff.mp wellFormed
  rw [split, List.tail_append_of_ne_nil (by simp), List.map_append] at flags
  obtain ⟨baseEdges, horizonEdges, edges, ofBase, ofHorizon⟩ := List.map_eq_append_iff.mp flags
  have lengths := congrArg List.length ofBase
  simp only [List.length_map, List.length_tail, List.length_append, List.length_singleton,
    Nat.add_sub_cancel] at lengths
  refine ⟨before, baseEnd, horizon, baseEdges, horizonEdges, by simp [split], edges, lengths,
    fun node member => inBase node (List.mem_append_left _ member), inBase baseEnd (by simp),
    inHorizon, ?_, ?_⟩
  · intro edge member
    have flag := List.mem_map_of_mem (f := Edge.released) member
    rw [ofBase] at flag
    obtain ⟨node, inTail, same⟩ := List.mem_map.mp flag
    rw [← same]
    exact inBase node (List.mem_of_mem_tail inTail)
  · intro edge member
    have flag := List.mem_map_of_mem (f := Edge.released) member
    rw [ofHorizon] at flag
    obtain ⟨node, inTail, same⟩ := List.mem_map.mp flag
    rw [← same]
    exact inHorizon node inTail

theorem beforeHorizon_append {Element : Type} {released : Element → Bool}
    {base horizon : List Element} (inBase : ∀ element ∈ base, released element)
    (inHorizon : ∀ element ∈ horizon, released element = false) :
    beforeHorizon released (base ++ horizon) = base := by
  unfold beforeHorizon
  rw [Library.findIdx?_base_append inBase inHorizon]
  cases horizon with
  | nil => simp
  | cons element horizon => simp

private theorem filter_base_append {Element : Type} {released : Element → Bool}
    {base horizon : List Element} (inBase : ∀ element ∈ base, released element)
    (inHorizon : ∀ element ∈ horizon, released element = false) :
    (base ++ horizon).filter released = base := by
  rw [List.filter_append, List.filter_eq_self.mpr inBase,
    List.filter_eq_nil_iff.mpr (by simpa using inHorizon), List.append_nil]

namespace Cut

variable {order : Order} {before horizon : List Node} {baseEnd : Node}
  {baseEdges horizonEdges : List Edge}

private theorem nodes_append (cut : Cut order before baseEnd horizon baseEdges horizonEdges) :
    order.nodes = (before ++ [baseEnd]) ++ horizon := by
  rw [cut.nodes, List.append_assoc, List.singleton_append]

theorem inBase (cut : Cut order before baseEnd horizon baseEdges horizonEdges) :
    ∀ node ∈ before ++ [baseEnd], node.released := by
  intro node member
  rcases List.mem_append.mp member with member | member
  · exact cut.beforeReleased node member
  · exact List.mem_singleton.mp member ▸ cut.endReleased

private theorem beforeHorizon_nodes
    (cut : Cut order before baseEnd horizon baseEdges horizonEdges) :
    beforeHorizon (·.released) order.nodes = before ++ [baseEnd] := by
  rw [cut.nodes_append]
  exact beforeHorizon_append cut.inBase cut.horizon

private theorem beforeHorizon_edges
    (cut : Cut order before baseEnd horizon baseEdges horizonEdges) :
    beforeHorizon (·.released) order.edges = baseEdges := by
  rw [cut.edges]
  exact beforeHorizon_append cut.baseEdges cut.horizonEdges

private theorem releasedNodes (cut : Cut order before baseEnd horizon baseEdges horizonEdges) :
    order.nodes.filter (·.released) = before ++ [baseEnd] := by
  rw [cut.nodes_append]
  exact filter_base_append cut.inBase cut.horizon

private theorem releasedEdges (cut : Cut order before baseEnd horizon baseEdges horizonEdges) :
    order.edges.filter (·.released) = baseEdges := by
  rw [cut.edges]
  exact filter_base_append cut.baseEdges cut.horizonEdges

theorem currentBaseEnd (cut : Cut order before baseEnd horizon baseEdges horizonEdges) :
    AgvController.currentBaseEnd order = some baseEnd := by
  have start := Library.findIdx?_base_append cut.inBase cut.horizon
  rw [← cut.nodes_append] at start
  unfold AgvController.currentBaseEnd
  rw [start]
  cases horizon with
  | nil => simp [cut.nodes]
  | cons node horizon => simp [cut.nodes]

end Cut

/-! ## The stitched order -/

/-- No other node of the base is the same object as its end. -/
private theorem Cut.replaceNode_before {order : Order} {before horizon : List Node} {baseEnd : Node}
    {baseEdges horizonEdges : List Edge} (updated : Node)
    (cut : Cut order before baseEnd horizon baseEdges horizonEdges)
    (wellFormed : WellFormed order)
    (objects : ∀ node ∈ order.nodes, ∀ other ∈ order.nodes, node.ref = other.ref → node = other)
    (same : updated.ref = baseEnd.ref) :
    (before ++ [baseEnd]).map (replaceNode updated) = before ++ [updated] := by
  have increasing : (order.nodes.map (·.sequenceId)).Pairwise (· < ·) := by
    rw [← List.isChain_iff_pairwise, List.isChain_map]
    exact wellFormed.sequenceIds.imp fun previous node next => by omega
  rw [List.map_append, List.map_singleton]
  congr 1
  · conv_rhs => rw [← List.map_id before]
    apply List.map_congr_left
    intro node member
    apply if_neg
    intro sameObject
    have identical : node = baseEnd :=
      objects node (by simp [cut.nodes, member]) baseEnd (by simp [cut.nodes])
        (sameObject.trans same)
    rw [cut.nodes, List.map_append, List.pairwise_append] at increasing
    have less := increasing.2.2 _ (List.mem_map_of_mem member) baseEnd.sequenceId (by simp)
    rw [identical] at less
    exact Nat.lt_irrefl _ less
  · simp [replaceNode, same]

/-- The sequenceIds of adjacent nodes differ by two. -/
def Steps (nodes : List Node) : Prop :=
  nodes.IsChain fun previous node => node.sequenceId = previous.sequenceId + 2

theorem Steps.congr {nodes others : List Node} (same : nodes.map Node.place = others.map Node.place)
    (steps : Steps nodes) : Steps others := by
  have ofPlaces : ∀ nodes : List Node,
      (nodes.map Node.place).IsChain (fun previous place => place.2.1 = previous.2.1 + 2) ↔
        Steps nodes := by
    intro nodes
    rw [List.isChain_map]
    rfl
  rw [← ofPlaces] at steps ⊢
  rwa [← same]

private theorem joins_congr (edge : Edge) (node next node' next' : Node)
    (same : node.place = node'.place)
    (sameNext : next.place = next'.place) (joins : edge.Joins node next) :
    edge.Joins node' next' := by
  simp only [Node.place, Prod.mk.injEq] at same sameNext
  constructor
  · rw [← same.2.1]
    exact joins.sequenceId
  · rw [← same.1]
    exact joins.startNodeId
  · rw [← sameNext.1]
    exact joins.endNodeId

private theorem released_congr (edge : Edge) (node next node' next' : Node)
    (_ : node.place = node'.place) (sameNext : next.place = next'.place)
    (same : edge.released = next.released) : edge.released = next'.released := by
  simp only [Node.place, Prod.mk.injEq] at sameNext
  rw [same, sameNext.2.2]

/-- A relation between the edges and the nodes of two orders is kept when the
one is stitched to the other. -/
private theorem Cut.joined_stitched {joins : Edge → Node → Node → Prop}
    {currentOrder order : Order} {before horizon nodes : List Node}
    {baseEnd updated firstNode : Node} {baseEdges horizonEdges : List Edge}
    (respects : ∀ edge node next node' next', Node.place node = node'.place →
      Node.place next = next'.place → joins edge node next → joins edge node' next')
    (cut : Cut currentOrder before baseEnd horizon baseEdges horizonEdges)
    (first : order.nodes = firstNode :: nodes)
    (sameEnd : baseEnd.place = updated.place) (sameFirst : firstNode.place = updated.place)
    (current : Library.Joined joins currentOrder.edges currentOrder.nodes)
    (added : Library.Joined joins order.edges order.nodes) :
    Library.Joined joins (baseEdges ++ order.edges) (before ++ updated :: nodes) := by
  rw [cut.nodes, cut.edges, Library.joined_split cut.lengths] at current
  rw [first] at added
  rw [Library.joined_split cut.lengths]
  constructor
  · exact current.1.congr respects (by simp [sameEnd])
  · exact added.congr respects (by simp [sameFirst])

private theorem Cut.wellFormed_stitched {currentOrder order next : Order}
    {before horizon nodes : List Node}
    {baseEnd updated firstNode : Node} {baseEdges horizonEdges : List Edge}
    (cut : Cut currentOrder before baseEnd horizon baseEdges horizonEdges)
    (current : WellFormed currentOrder) (added : WellFormed order)
    (first : order.nodes = firstNode :: nodes)
    (sameEnd : baseEnd.place = updated.place) (sameFirst : firstNode.place = updated.place)
    (nextNodes : next.nodes = before ++ updated :: nodes)
    (nextEdges : next.edges = baseEdges ++ order.edges) : WellFormed next := by
  have updatedReleased : updated.released := by
    have same := congrArg (·.2.2) sameEnd
    rw [← cut.endReleased]
    exact same.symm
  refine ⟨⟨?_, ?_, ?_, ?_, ?_⟩, ?_⟩
  · obtain ⟨start, head, released, even⟩ := current.firstNode
    rw [cut.nodes] at head
    rw [nextNodes]
    cases before with
    | nil =>
        obtain rfl : baseEnd = start := by simpa using head
        have same : baseEnd.sequenceId = updated.sequenceId := congrArg (·.2.1) sameEnd
        exact ⟨updated, rfl, updatedReleased, same ▸ even⟩
    | cons node before => exact ⟨start, head, released, even⟩
  · have currentSteps : Steps currentOrder.nodes := current.sequenceIds
    have addedSteps : Steps order.nodes := added.sequenceIds
    rw [cut.nodes] at currentSteps
    rw [first] at addedSteps
    rw [nextNodes, List.isChain_split]
    constructor
    · exact Steps.congr (by simp [sameEnd]) (List.isChain_split.mp currentSteps).1
    · exact Steps.congr (by simp [sameFirst]) addedSteps
  · have addedNodes := added.baseNodes
    rw [first, Library.baseFirst_cons_released] at addedNodes
    · rw [nextNodes, Library.baseFirst_append_released cut.beforeReleased,
        Library.baseFirst_cons_released updatedReleased]
      exact addedNodes
    · have same := congrArg (·.2.2) sameFirst
      exact same.trans updatedReleased
  · have lengths := added.edges
    rw [first] at lengths
    simp only [nextNodes, nextEdges, List.length_append, List.length_cons, cut.lengths] at lengths ⊢
    omega
  · rw [nextNodes, nextEdges]
    exact cut.joined_stitched joins_congr first sameEnd sameFirst current.joined added.joined
  · rw [nextNodes, nextEdges]
    exact cut.joined_stitched released_congr first sameEnd sameFirst current.released added.released

/-! ## The stitched states -/

private theorem getNodeStates_filter_released (nodes : List Node) :
    (getNodeStates nodes).filter (·.released) = getNodeStates (nodes.filter (·.released)) := by
  unfold getNodeStates
  rw [List.filter_map]
  rfl

/-- The states of nodes do not depend on their actions. -/
private theorem getNodeStates_before {before : List Node} {baseEnd : Node} (actions : List Action) :
    getNodeStates (before ++ [{ baseEnd with actions := actions }]) =
      getNodeStates (before ++ [baseEnd]) := by
  simp [getNodeStates]

private theorem getNodeStates_drop (nodes : List Node) (traversed : Nat) :
    getNodeStates (nodes.drop traversed) = (getNodeStates nodes).drop traversed :=
  List.map_drop

/-- The states of the base left, followed by those of the added nodes. -/
private theorem Cut.nodeStates_stitched {currentOrder : Order} {state : State}
    {before horizon : List Node} {baseEnd : Node} {baseEdges horizonEdges : List Edge}
    {traversed : Nat} (cut : Cut currentOrder before baseEnd horizon baseEdges horizonEdges)
    (describes : Describes state currentOrder traversed) (actions : List Action)
    (added : List Node) :
    state.nodeStates.filter (·.released) ++ getNodeStates added =
      getNodeStates ((before ++ { baseEnd with actions := actions } :: added).drop traversed) := by
  have bound := describes.bound
  rw [cut.releasedNodes] at bound
  have left : state.nodeStates.filter (·.released) =
      getNodeStates ((before ++ [baseEnd]).drop traversed) := by
    rw [describes.nodeStates, getNodeStates_filter_released, cut.nodes_append,
      List.drop_append_of_le_length bound]
    congr 1
    apply filter_base_append
    · exact fun node member => cut.inBase node (List.mem_of_mem_drop member)
    · exact cut.horizon
  have bound' : traversed ≤ (before ++ [{ baseEnd with actions := actions }]).length := by
    simpa using bound
  calc state.nodeStates.filter (·.released) ++ getNodeStates added
      = getNodeStates ((before ++ [{ baseEnd with actions := actions }]).drop traversed) ++
          getNodeStates added := by
        rw [left, getNodeStates_drop, ← getNodeStates_before actions, ← getNodeStates_drop]
    _ = getNodeStates ((before ++ [{ baseEnd with actions := actions }]).drop traversed ++
          added) := by
        simp only [getNodeStates, List.map_append]
    _ = getNodeStates ((before ++ { baseEnd with actions := actions } :: added).drop traversed) := by
        rw [← List.drop_append_of_le_length bound', List.append_assoc, List.singleton_append]

private theorem getEdgeStates_bare (trajectory : TrajectoryHandler) (order : Order) :
    (getEdgeStates trajectory order).map EdgeState.bare = order.edges.map Edge.bareState := by
  simp [getEdgeStates, EdgeState.bare, Edge.bareState]

/-- The states of the base edges left, followed by those of the added edges. -/
private theorem Cut.edgeStates_stitched {currentOrder order : Order} {state : State}
    {before horizon : List Node} {baseEnd : Node} {baseEdges horizonEdges : List Edge}
    {traversed : Nat} (cut : Cut currentOrder before baseEnd horizon baseEdges horizonEdges)
    (describes : Describes state currentOrder traversed) (trajectory : TrajectoryHandler) :
    (state.edgeStates.filter (·.released) ++ getEdgeStates trajectory order).map EdgeState.bare =
      ((baseEdges ++ order.edges).drop (traversed - 1)).map Edge.bareState := by
  have bound : traversed - 1 ≤ baseEdges.length := by
    have bound := describes.bound
    rw [cut.releasedNodes, List.length_append, List.length_singleton] at bound
    rw [cut.lengths]
    omega
  have left : (state.edgeStates.filter (·.released)).map EdgeState.bare =
      (baseEdges.drop (traversed - 1)).map Edge.bareState := by
    have same : (state.edgeStates.filter (·.released)).map EdgeState.bare =
        (state.edgeStates.map EdgeState.bare).filter (·.released) := by
      rw [List.filter_map]
      rfl
    rw [same, describes.edgeStates, cut.edges, List.drop_append_of_le_length bound,
      List.map_append]
    apply filter_base_append
    · intro edge member
      obtain ⟨edge, inBase, rfl⟩ := List.mem_map.mp member
      exact cut.baseEdges edge (List.mem_of_mem_drop inBase)
    · intro edge member
      obtain ⟨edge, inHorizon, rfl⟩ := List.mem_map.mp member
      exact cut.horizonEdges edge inHorizon
  rw [List.map_append, left, getEdgeStates_bare, List.drop_append_of_le_length bound,
    List.map_append]

/-! ## The actions -/

/-- The released actions of the stitched order are those of both orders. -/
private theorem Cut.releasedActions_stitched {currentOrder order next : Order}
    {before horizon nodes : List Node} {baseEnd firstNode : Node}
    {baseEdges horizonEdges : List Edge}
    (cut : Cut currentOrder before baseEnd horizon baseEdges horizonEdges)
    (first : order.nodes = firstNode :: nodes) (firstReleased : firstNode.released)
    (nextNodes : next.nodes = before ++
      { baseEnd with actions := baseEnd.actions ++ firstNode.actions } :: nodes)
    (nextEdges : next.edges = baseEdges ++ order.edges) :
    (currentOrder.releasedActions ++ order.releasedActions).Perm next.releasedActions := by
  have before_ : before.filter (·.released) = before :=
    List.filter_eq_self.mpr cut.beforeReleased
  have edges_ : baseEdges.filter (·.released) = baseEdges :=
    List.filter_eq_self.mpr cut.baseEdges
  simp only [Order.releasedActions, cut.releasedNodes, cut.releasedEdges, first, nextNodes,
    nextEdges, List.filter_append, List.filter_cons, firstReleased, cut.endReleased, before_,
    edges_, if_true, List.flatMap_append, List.flatMap_cons, List.flatMap_nil, List.append_nil]
  rw [List.perm_iff_count]
  intro action
  simp only [List.count_append]
  omega

/-! ## Acceptance of a stitching order -/

private theorem isOrderBaseStitching_iff {agv : AgvController} {currentOrder order : Order}
    {baseEnd firstNode : Node} (current : agv.currentOrder = some currentOrder)
    (found : AgvController.currentBaseEnd currentOrder = some baseEnd)
    (first : order.nodes.head? = some firstNode) :
    agv.isOrderBaseStitching order ↔
      baseEnd.nodeId = firstNode.nodeId ∧ baseEnd.sequenceId = firstNode.sequenceId := by
  simp [isOrderBaseStitching, current, found, first]

end AgvController

namespace Config

theorem traverseEdge_agv (c : Config) (edge : Edge) : (c.traverseEdge edge).agv = c.agv := by
  unfold traverseEdge
  split <;> rfl

theorem processEdge_agv (c : Config) (node : Node) : (c.processEdge node).agv = c.agv := by
  unfold processEdge
  split
  · rfl
  · split
    · rfl
    · next edge _ =>
      split
      · unfold processEdgeActions
        cases scheduleAfter edge.actions none with
        | processed => exact traverseEdge_agv c edge
        | hard action => rfl
        | parallel actions stopDriving => rfl
      · rfl

/-- What stitching leaves behind in the controller. -/
theorem acceptOrder_stitch_agv {c : Config} {trajectory : TrajectoryHandler}
    {currentOrder order : Order} {baseEnd : Node} (current : c.agv.currentOrder = some currentOrder)
    (found : AgvController.currentBaseEnd currentOrder = some baseEnd) :
    (c.acceptOrder trajectory order .stitch).agv =
      { c.agv with
        currentOrder := some (stitchedOrder currentOrder baseEnd order)
        currentPausedNode :=
          c.agv.currentPausedNode.map (AgvController.replaceNode (stitchedBaseEnd baseEnd order))
        currentState :=
          c.agv.currentState.merge (c.agv.acceptedState trajectory order .stitch) } := by
  have stitched : (c.stitchOrder trajectory currentOrder baseEnd order).agv =
      { c.agv with
        currentOrder := some (stitchedOrder currentOrder baseEnd order)
        currentPausedNode :=
          c.agv.currentPausedNode.map (AgvController.replaceNode (stitchedBaseEnd baseEnd order))
        currentState :=
          c.agv.currentState.merge (c.agv.acceptedState trajectory order .stitch) } := by
    simp [stitchOrder, observe, replaceNode]
  simp only [acceptOrder, current, found]
  split
  · rw [processEdge_agv, stitched]
  · exact stitched

end Config

/-- A well-formed order stitched to the base of the current order yields an
order that extends it, and states that describe what is left of it. -/
theorem acceptOrder_stitch_aligned {c : Config} {trajectory : TrajectoryHandler}
    {currentOrder order : Order} {traversed : Nat}
    (current : c.agv.currentOrder = some currentOrder)
    (aligned : Aligned c.agv currentOrder traversed)
    (objects : ∀ node ∈ currentOrder.nodes, ∀ other ∈ currentOrder.nodes,
      node.ref = other.ref → node = other)
    (added : WellFormed order) (stitching : c.agv.isOrderBaseStitching order)
    (distinct : ∀ state ∈ getActionStates order, c.agv.isInstantActionState state = false) :
    ∃ next, (c.acceptOrder trajectory order .stitch).agv.currentOrder = some next ∧
      Extends currentOrder next ∧
      Aligned (c.acceptOrder trajectory order .stitch).agv next traversed ∧
      c.agv.currentState.actionStates <+:
        (c.acceptOrder trajectory order .stitch).agv.currentState.actionStates := by
  obtain ⟨before, baseEnd, horizon, baseEdges, horizonEdges, cut⟩ := aligned.wellFormed.cut
  obtain ⟨firstNode, head, firstReleased, -⟩ := added.firstNode
  obtain ⟨nodes, first⟩ := List.head?_eq_some_iff.mp head
  obtain ⟨sameId, sameSequence⟩ :=
    (isOrderBaseStitching_iff current cut.currentBaseEnd head).mp stitching
  rw [Config.acceptOrder_stitch_agv current cut.currentBaseEnd]
  have nextNodes : (stitchedOrder currentOrder baseEnd order).nodes =
      before ++ { baseEnd with actions := baseEnd.actions ++ firstNode.actions } :: nodes := by
    have replaced := cut.replaceNode_before (stitchedBaseEnd baseEnd order) aligned.wellFormed
      objects rfl
    simp only [stitchedOrder, cut.beforeHorizon_nodes, replaced, first, List.tail_cons,
      List.append_assoc, List.singleton_append]
    simp [stitchedBaseEnd, first]
  have nextEdges : (stitchedOrder currentOrder baseEnd order).edges = baseEdges ++ order.edges := by
    simp only [stitchedOrder, cut.beforeHorizon_edges]
  have samePlace : firstNode.place = baseEnd.place := by
    simp [Node.place, sameId, sameSequence, firstReleased, cut.endReleased]
  have wellFormed : WellFormed (stitchedOrder currentOrder baseEnd order) := by
    refine cut.wellFormed_stitched aligned.wellFormed added first ?_ ?_ nextNodes nextEdges
    · rfl
    · exact samePlace
  have releasedNodes : (stitchedOrder currentOrder baseEnd order).nodes.filter (·.released) =
      before ++ { baseEnd with actions := baseEnd.actions ++ firstNode.actions } ::
        nodes.filter (·.released) := by
    rw [nextNodes, List.filter_append, List.filter_eq_self.mpr cut.beforeReleased,
      List.filter_cons, if_pos cut.endReleased]
  refine ⟨_, rfl, ⟨?_, ?_⟩, ⟨wellFormed, ⟨?_, ?_, ?_⟩, ?_⟩, ?_⟩
  · exact ⟨before, baseEnd, firstNode.actions, nodes.filter (·.released), cut.releasedNodes,
      releasedNodes⟩
  · refine ⟨order.edges.filter (·.released), ?_⟩
    rw [nextEdges, List.filter_append, List.filter_eq_self.mpr cut.baseEdges, cut.releasedEdges]
  · have bound := aligned.describes.bound
    rw [cut.releasedNodes] at bound
    rw [releasedNodes]
    simp only [List.length_append, List.length_cons, List.length_nil] at bound ⊢
    omega
  · rw [nextNodes, ← cut.nodeStates_stitched aligned.describes]
    simp [State.merge, acceptedState, first]
  · rw [nextEdges, ← cut.edgeStates_stitched aligned.describes trajectory]
    simp [State.merge, acceptedState]
  · have kept := aligned.actionStates.append_right (actionIds order.releasedActions)
    have actions := (cut.releasedActions_stitched first firstReleased nextNodes nextEdges).map
      (·.actionId)
    rw [List.map_append] at actions
    refine List.Perm.trans (List.Perm.of_eq ?_) (kept.trans actions)
    have new : (getActionStates order).filter (fun state => !c.agv.isInstantActionState state) =
        getActionStates order := by
      rw [List.filter_eq_self]
      intro state member
      rw [distinct state member]
      rfl
    rw [← actionIds_getActionStates, ← new, ← List.map_append]
    congr 1
    exact List.filter_append _ _
  · exact ⟨getActionStates order, by simp [State.merge, acceptedState]⟩

/-! ## An order stitched while its first edge is traversed -/

/-- A node without actions. -/
def plainNode (nodeId : String) (sequenceId : Nat) (released : Bool) : Node where
  nodeId := nodeId
  sequenceId := sequenceId
  released := released
  actions := []

/-- An edge without actions. -/
def plainEdge (startNodeId endNodeId : String) (sequenceId : Nat) (released : Bool) : Edge where
  edgeId := startNodeId ++ endNodeId
  sequenceId := sequenceId
  released := released
  startNodeId := startNodeId
  endNodeId := endNodeId
  actions := []

/-- An order with a base of two nodes and a horizon of one. -/
def openOrder : Order where
  orderId := "order"
  orderUpdateId := 0
  nodes := [plainNode "a" 0 true, plainNode "b" 2 true, plainNode "c" 4 false]
  edges := [plainEdge "a" "b" 1 true, plainEdge "b" "c" 3 false]

/-- Another way to go on from the base end, with an action there. -/
def detourOrder : Order where
  orderId := "order"
  orderUpdateId := 1
  nodes :=
    [{ plainNode "b" 2 true with
        actions := [{ actionId := "beep", actionType := "beep", blockingType := .none }] },
      plainNode "d" 4 true, plainNode "e" 6 false]
  edges := [plainEdge "b" "d" 3 true, plainEdge "d" "e" 5 false]

private theorem AgvController.WellFormed.of_valid {order : Order}
    (valid : validateOrderConstraints order = .ok ())
    (released : order.edges.map (·.released) = order.nodes.tail.map (·.released)) :
    WellFormed order :=
  (validateOrderConstraints_iff.mp valid).1.wellFormed_iff.mpr released

/-- The vehicle traverses the first edge of the order. -/
def openConfig : Config := (Config.initial 5).processOrder openOrder {}

theorem acceptOrder_stitch_aligned_of_detour :
    ∃ next, (openConfig.acceptOrder none detourOrder .stitch).agv.currentOrder = some next ∧
      Extends (Config.allocateNodes 0 openOrder) next ∧
      Aligned (openConfig.acceptOrder none detourOrder .stitch).agv next 1 ∧
      openConfig.agv.currentState.actionStates <+:
        (openConfig.acceptOrder none detourOrder .stitch).agv.currentState.actionStates := by
  refine acceptOrder_stitch_aligned (by decide) ⟨.of_valid rfl rfl, ⟨?_, ?_, ?_⟩, ?_⟩ ?_
    (.of_valid rfl rfl) ?_ ?_
  all_goals decide

end Vda5050
