import Vda5050.AgvController.Orders
import Vda5050.Library.Path

/-!
# Well-formed orders

The orders accepted by `_validateOrderConstraints` compared with the
well-formed ones.
-/

set_option autoImplicit false

namespace Vda5050

/-- The edge leads from the one node to the other. -/
structure Edge.Joins (edge : Edge) (node next : Node) : Prop where
  sequenceId : edge.sequenceId = node.sequenceId + 1
  startNodeId : edge.startNodeId = node.nodeId
  endNodeId : edge.endNodeId = next.nodeId

namespace AgvController

/-- The constraints on an order, except for the release of its edges. -/
structure Framed (order : Order) : Prop where
  firstNode : ∃ firstNode ∈ order.nodes.head?,
    firstNode.released ∧ firstNode.sequenceId % 2 = 0
  sequenceIds : order.nodes.IsChain fun previous node =>
    node.sequenceId = previous.sequenceId + 2
  baseNodes : Library.BaseFirst (·.released) order.nodes
  edges : order.edges.length + 1 = order.nodes.length
  joined : Library.Joined Edge.Joins order.edges order.nodes

/-- An edge is released if and only if the node it leads to is. -/
structure WellFormed (order : Order) : Prop extends Framed order where
  released : Library.Joined (fun edge _ next => edge.released = next.released)
    order.edges order.nodes

/-! ## The nodes -/

/-- Behind the first horizon node no node may be released. -/
private theorem validateNodes_horizon {nodes : List Node} {i : Nat} {previous : Node}
    {firstHorizonIndex found : Option Nat} :
    validateNodes i (some previous) false firstHorizonIndex nodes = .ok found ↔
      (previous :: nodes).IsChain (fun previous node => node.sequenceId = previous.sequenceId + 2) ∧
        (∀ node ∈ nodes, node.released = false) ∧ firstHorizonIndex = found := by
  induction nodes generalizing i previous with
  | nil => simp [validateNodes]
  | cons node nodes ih =>
      by_cases follows : node.sequenceId = previous.sequenceId + 2
      · cases released : node.released with
        | true => simp [validateNodes, follows, released]
        | false => simp [validateNodes, follows, released, ih]
      · simp [validateNodes, follows]

/-- As long as all nodes are released the first horizon node is searched. -/
private theorem validateNodes_base {nodes : List Node} {i : Nat} {previous : Node}
    {found : Option Nat} :
    validateNodes i (some previous) true none nodes = .ok found ↔
      (previous :: nodes).IsChain (fun previous node => node.sequenceId = previous.sequenceId + 2) ∧
        Library.BaseFirst (·.released) nodes ∧
          (nodes.findIdx? fun node => !node.released).map (· + i) = found := by
  induction nodes generalizing i previous with
  | nil => simp [validateNodes, Library.BaseFirst.nil]
  | cons node nodes ih =>
      by_cases follows : node.sequenceId = previous.sequenceId + 2
      · cases released : node.released with
        | true =>
            have index : (((node :: nodes).findIdx? fun node => !node.released).map (· + i)) =
                (nodes.findIdx? fun node => !node.released).map (· + (i + 1)) := by
              rw [List.findIdx?_cons, if_neg (by simp [released]), Option.map_map]
              congr 1
              funext index
              simp only [Function.comp_apply]
              omega
            rw [index, Library.baseFirst_cons_released released, List.isChain_cons_cons]
            simp [validateNodes, follows, released, ih]
        | false =>
            rw [Library.baseFirst_cons_horizon released, List.isChain_cons_cons,
              List.findIdx?_cons, if_pos (by simp [released])]
            simp [validateNodes, follows, released, validateNodes_horizon]
      · simp [validateNodes, follows]

/-! ## The edges -/

/-- What the loop over the edges checks in one iteration. -/
private theorem validateEdges_cons {edge : Edge} {edges : List Edge} {node next : Node}
    {nodes : List Node} {firstHorizonIndex : Option Nat} {i : Nat} {isBase : Bool} :
    validateEdges firstHorizonIndex i isBase (edge :: edges) (node :: next :: nodes) = .ok () ↔
      edge.Joins node next ∧
        (isBase → edge.released = false → firstHorizonIndex = some (i + 1)) ∧
        (isBase = false → edge.released = false) ∧
        validateEdges firstHorizonIndex (i + 1) (isBase && edge.released) edges
          (next :: nodes) = .ok () := by
  constructor
  · intro valid
    simp only [validateEdges] at valid
    split at valid
    · cases valid
    · next sequenceId =>
      split at valid
      · cases valid
      · next base =>
        split at valid
        · cases valid
        · next horizon =>
          split at valid
          · cases valid
          · next ends =>
            simp only [Bool.or_eq_true, decide_eq_true_eq, not_or, not_not] at ends
            refine ⟨⟨by simpa using sequenceId, ends.1, ends.2⟩, ?_, ?_, valid⟩
            · rintro rfl unreleased
              simpa [unreleased] using base
            · rintro rfl
              simpa using horizon
  · rintro ⟨joins, base, horizon, rest⟩
    simp only [validateEdges, joins.sequenceId, joins.startNodeId, joins.endNodeId, rest]
    cases isBase <;> cases released : edge.released <;> simp_all

/-- Behind the first horizon edge no edge may be released. -/
private theorem validateEdges_horizon {edges : List Edge} {nodes : List Node}
    {firstHorizonIndex : Option Nat} {i : Nat} (lengths : edges.length + 1 = nodes.length) :
    validateEdges firstHorizonIndex i false edges nodes = .ok () ↔
      Library.Joined Edge.Joins edges nodes ∧ ∀ edge ∈ edges, edge.released = false := by
  induction edges generalizing i nodes with
  | nil => simp [validateEdges]
  | cons edge edges ih =>
      obtain ⟨node, next, rest, rfl, shorter⟩ := Library.nodes_of_edges lengths
      rw [validateEdges_cons, Bool.false_and, ih shorter, Library.joined_cons]
      simp only [Bool.false_eq_true, false_implies, true_and, forall_const, List.mem_cons,
        forall_eq_or_imp]
      tauto

/-- As long as all edges are released, the first one that is not has to lead
to the first horizon node. -/
private theorem validateEdges_base {edges : List Edge} {nodes : List Node}
    {firstHorizonIndex : Option Nat} {i : Nat} (lengths : edges.length + 1 = nodes.length) :
    validateEdges firstHorizonIndex i true edges nodes = .ok () ↔
      Library.Joined Edge.Joins edges nodes ∧ Library.BaseFirst (·.released) edges ∧
        ∀ index, (edges.findIdx? fun edge => !edge.released) = some index →
          firstHorizonIndex = some (i + index + 1) := by
  induction edges generalizing i nodes with
  | nil => simp [validateEdges, Library.BaseFirst.nil]
  | cons edge edges ih =>
      obtain ⟨node, next, rest, rfl, shorter⟩ := Library.nodes_of_edges lengths
      rw [validateEdges_cons, Library.joined_cons, List.findIdx?_cons]
      cases released : edge.released with
      | true =>
          rw [Library.baseFirst_cons_released released, Bool.and_true, ih shorter]
          have shifted : (∀ index, (edges.findIdx? fun edge => !edge.released) = some index →
                firstHorizonIndex = some (i + 1 + index + 1)) ↔
              ∀ index, (edges.findIdx? fun edge => !edge.released).map (· + 1) = some index →
                firstHorizonIndex = some (i + index + 1) := by
            cases edges.findIdx? fun edge => !edge.released with
            | none => simp
            | some index =>
                have same : i + 1 + index + 1 = i + (index + 1) + 1 := by omega
                simp [same]
          simp only [shifted, Bool.not_true, Bool.false_eq_true, if_false]
          simp only [implies_true, true_and, Bool.true_eq_false, false_implies, and_assoc]
      | false =>
          rw [Library.baseFirst_cons_horizon released, Bool.and_false,
            validateEdges_horizon shorter]
          simp only [Bool.not_false, if_true, Option.some.injEq, forall_eq', Nat.add_zero]
          simp only [forall_const, Bool.true_eq_false, false_implies, true_and]
          tauto

/-! ## The whole order -/

private theorem validateNodes_first {firstNode : Node} {nodes : List Node} {found : Option Nat}
    (released : firstNode.released) :
    validateNodes 0 none true none (firstNode :: nodes) = .ok found ↔
      firstNode.sequenceId % 2 = 0 ∧
        (firstNode :: nodes).IsChain
          (fun previous node => node.sequenceId = previous.sequenceId + 2) ∧
        Library.BaseFirst (·.released) (firstNode :: nodes) ∧
        ((firstNode :: nodes).findIdx? fun node => !node.released) = found := by
  rw [Library.baseFirst_cons_released released, List.findIdx?_cons,
    if_neg (by simp [released])]
  by_cases even : firstNode.sequenceId % 2 = 0
  · simp [validateNodes, even, released, validateNodes_base]
  · simp [validateNodes, even]

/-- All constraints but those on the release of edges are checked as such. -/
theorem validateOrderConstraints_iff {order : Order} :
    validateOrderConstraints order = .ok () ↔
      Framed order ∧ Library.BaseFirst (·.released) order.edges ∧
        ∀ index, (order.edges.findIdx? fun edge => !edge.released) = some index →
          (order.nodes.findIdx? fun node => !node.released) = some (index + 1) := by
  unfold validateOrderConstraints
  constructor
  · intro valid
    split at valid
    · cases valid
    · next first =>
      obtain ⟨firstNode, head, released⟩ : ∃ firstNode, order.nodes.head? = some firstNode ∧
          firstNode.released := by
        cases head : order.nodes.head? with
        | none => simp [head] at first
        | some firstNode => exact ⟨firstNode, rfl, by simpa [head] using first⟩
      obtain ⟨nodes, same⟩ := List.head?_eq_some_iff.mp head
      obtain ⟨firstHorizonIndex, nodesValid, valid⟩ : ∃ firstHorizonIndex,
          validateNodes 0 none true none order.nodes = .ok firstHorizonIndex ∧
            (if order.edges.length + 1 ≠ order.nodes.length then
              throw "Incompatible sequence of nodes and edges"
            else validateEdges firstHorizonIndex 0 true order.edges order.nodes) =
              (.ok () : Except String Unit) := by
        cases nodesValid : validateNodes 0 none true none order.nodes with
        | error message => rw [nodesValid] at valid; cases valid
        | ok firstHorizonIndex =>
            rw [nodesValid] at valid
            exact ⟨firstHorizonIndex, rfl, valid⟩
      split at valid
      · cases valid
      · next lengths =>
        rw [same, validateNodes_first released] at nodesValid
        obtain ⟨even, sequenceIds, baseNodes, rfl⟩ := nodesValid
        rw [validateEdges_base (not_not.mp lengths)] at valid
        rw [← same] at sequenceIds baseNodes valid
        refine ⟨⟨⟨firstNode, head, released, even⟩, sequenceIds, baseNodes, not_not.mp lengths,
          valid.1⟩, valid.2.1, ?_⟩
        intro index found
        simpa using valid.2.2 index found
  · rintro ⟨framed, baseEdges, horizon⟩
    obtain ⟨firstNode, head, released, even⟩ := framed.firstNode
    obtain ⟨nodes, same⟩ := List.head?_eq_some_iff.mp head
    have nodesValid : validateNodes 0 none true none order.nodes =
        .ok (order.nodes.findIdx? fun node => !node.released) := by
      have sequenceIds := framed.sequenceIds
      have baseNodes := framed.baseNodes
      rw [same] at sequenceIds baseNodes ⊢
      exact (validateNodes_first released).mpr ⟨even, sequenceIds, baseNodes, rfl⟩
    have edgesValid : validateEdges (order.nodes.findIdx? fun node => !node.released) 0 true
        order.edges order.nodes = .ok () := by
      rw [validateEdges_base framed.edges]
      exact ⟨framed.joined, baseEdges, by simpa using horizon⟩
    rw [if_neg (by simp [same, released]), nodesValid]
    exact (if_neg (not_not.mpr framed.edges)).trans edgesValid

/-- The nodes behind the first one of an order, which is released. -/
theorem Framed.tail {order : Order} (framed : Framed order) :
    Library.BaseFirst (·.released) order.nodes.tail ∧
      (order.nodes.findIdx? fun node => !node.released) =
        (order.nodes.tail.findIdx? fun node => !node.released).map (· + 1) ∧
      order.nodes.tail.length = order.edges.length := by
  obtain ⟨firstNode, head, released, -⟩ := framed.firstNode
  obtain ⟨nodes, same⟩ := List.head?_eq_some_iff.mp head
  have baseNodes := framed.baseNodes
  have lengths := framed.edges
  rw [same] at baseNodes lengths ⊢
  refine ⟨(Library.baseFirst_cons_released released).mp baseNodes, ?_, ?_⟩
  · rw [List.findIdx?_cons, if_neg (by simp [released]), List.tail_cons]
  · simpa using lengths.symm

theorem Framed.wellFormed_iff {order : Order} (framed : Framed order) :
    WellFormed order ↔ order.edges.map (·.released) = order.nodes.tail.map (·.released) := by
  rw [← Library.joined_next_iff framed.edges]
  exact ⟨WellFormed.released, fun released => ⟨framed, released⟩⟩

private theorem findIdx?_map_released {Element : Type} (released : Element → Bool)
    (elements : List Element) :
    (elements.map released).findIdx? (!·) = elements.findIdx? fun element => !released element := by
  rw [List.findIdx?_map]
  rfl

theorem WellFormed.valid {order : Order} (wellFormed : WellFormed order) :
    validateOrderConstraints order = .ok () := by
  have framed := wellFormed.toFramed
  obtain ⟨baseNodes, start, -⟩ := framed.tail
  have same := framed.wellFormed_iff.mp wellFormed
  rw [validateOrderConstraints_iff]
  refine ⟨framed, ?_, ?_⟩
  · have flags : Library.BaseFirst id (order.nodes.tail.map (·.released)) :=
      Library.baseFirst_map.mpr baseNodes
    rw [← same, Library.baseFirst_map] at flags
    exact flags
  · intro index found
    rw [start, ← findIdx?_map_released, ← same, findIdx?_map_released, found]
    rfl

/-- All nodes of a well-formed order are released if its edges are. -/
private theorem WellFormed.nodes_released {order : Order} (wellFormed : WellFormed order)
    (released : ∀ edge ∈ order.edges, edge.released) (node : Node)
    (member : node ∈ order.nodes) : node.released := by
  obtain ⟨firstNode, head, firstReleased, -⟩ := wellFormed.firstNode
  obtain ⟨nodes, same⟩ := List.head?_eq_some_iff.mp head
  have flags := wellFormed.toFramed.wellFormed_iff.mp wellFormed
  rw [same, List.tail_cons] at flags
  rw [same] at member
  rcases List.mem_cons.mp member with rfl | later
  · exact firstReleased
  · have flag := List.mem_map_of_mem (f := (·.released)) later
    rw [← flags] at flag
    obtain ⟨edge, inOrder, sameFlag⟩ := List.mem_map.mp flag
    rw [← sameFlag, released edge inOrder]

/-- Among the orders that are well-formed but for the release of their edges,
those are accepted whose edges are all released, too. -/
private theorem Framed.valid_iff {order : Order} (framed : Framed order) :
    validateOrderConstraints order = .ok () ↔
      WellFormed order ∨ ∀ edge ∈ order.edges, edge.released := by
  obtain ⟨baseNodes, start, lengths⟩ := framed.tail
  constructor
  · intro valid
    obtain ⟨-, baseEdges, horizon⟩ := validateOrderConstraints_iff.mp valid
    cases found : order.edges.findIdx? fun edge => !edge.released with
    | none =>
        right
        simpa [List.findIdx?_eq_none_iff] using found
    | some index =>
        left
        rw [framed.wellFormed_iff]
        apply Library.BaseFirst.ext (Library.baseFirst_map.mpr baseEdges)
          (Library.baseFirst_map.mpr baseNodes)
        · rw [List.length_map, List.length_map, lengths]
        · have same := horizon index found
          rw [start, Option.map_eq_some_iff] at same
          obtain ⟨first, atNodes, same⟩ := same
          obtain rfl : first = index := Nat.succ.inj same
          rw [findIdx?_map_released, findIdx?_map_released, found, atNodes]
  · rintro (wellFormed | released)
    · exact wellFormed.valid
    · rw [validateOrderConstraints_iff]
      refine ⟨framed, ⟨order.edges, [], by simp, released, by simp⟩, ?_⟩
      intro index found
      have none : (order.edges.findIdx? fun edge => !edge.released) = none := by
        simpa [List.findIdx?_eq_none_iff] using released
      cases none.symm.trans found

/-- Validation accepts exactly the well-formed orders, except for orders whose
edges are all released though there are horizon nodes. -/
theorem valid_iff_wellFormed_iff (order : Order) :
    (validateOrderConstraints order = .ok () ↔ WellFormed order) ↔
      (Framed order → (∃ node ∈ order.nodes, node.released = false) →
        ∃ edge ∈ order.edges, edge.released = false) := by
  constructor
  · rintro exactly framed ⟨node, member, horizon⟩
    by_contra released
    simp only [not_exists, not_and, Bool.not_eq_false] at released
    have wellFormed := exactly.mp (framed.valid_iff.mpr (.inr released))
    exact absurd (wellFormed.nodes_released released node member) (by simp [horizon])
  · intro covered
    constructor
    · intro valid
      have framed := (validateOrderConstraints_iff.mp valid).1
      rcases framed.valid_iff.mp valid with wellFormed | released
      · exact wellFormed
      · have baseOnly : ∀ node ∈ order.nodes, node.released := by
          intro node member
          by_contra horizon
          obtain ⟨edge, inOrder, unreleased⟩ := covered framed ⟨node, member, by simpa using horizon⟩
          exact absurd (released edge inOrder) (by simp [unreleased])
        rw [framed.wellFormed_iff]
        apply List.ext_getElem
        · rw [List.length_map, List.length_map, framed.tail.2.2]
        · intro i inEdges inNodes
          simp only [List.getElem_map]
          rw [released _ (List.getElem_mem _), baseOnly _ (List.mem_of_mem_tail (List.getElem_mem _))]
    · exact WellFormed.valid

/-! ## A released edge to the horizon -/

/-- The only edge is released and leads to a horizon node. -/
def horizonOrder : Order where
  orderId := "order"
  orderUpdateId := 0
  nodes :=
    [{ nodeId := "start", sequenceId := 0, released := true, actions := [] },
      { nodeId := "end", sequenceId := 2, released := false, actions := [] }]
  edges :=
    [{ edgeId := "edge"
       sequenceId := 1
       released := true
       startNodeId := "start"
       endNodeId := "end"
       actions := [] }]

theorem not_valid_iff_wellFormed :
    ¬ ∀ order, validateOrderConstraints order = .ok () ↔ WellFormed order := by
  intro exactly
  have wellFormed := (exactly horizonOrder).mp rfl
  have released := wellFormed.released 0 _ _ _ rfl rfl rfl
  cases released

end AgvController

end Vda5050
