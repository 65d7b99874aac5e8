import Vda5050.AgvController.ActionLists
import Vda5050.AgvController.OrderUpdates

/-!
# The parked node

A node at which the vehicle arrives while it is paused is parked until an
instant action `stopPause` is finished. What can be said about it as long as
the pause ends in no other way.
-/

set_option autoImplicit false

namespace Vda5050

open AgvController

/-! ## The objects of the current order -/

/-- The node objects of an order that has been received, directly or stitched
from several messages. -/
structure Received (received : Nat) (order : Order) : Prop where
  baseNodes : Library.BaseFirst (·.released) order.nodes
  objects : ∀ node ∈ order.nodes, ∀ other ∈ order.nodes, node.ref = other.ref → node = other
  known : ∀ node ∈ order.nodes, node.ref.1 < received

theorem Received.mono {received later : Nat} {order : Order} (objects : Received received order)
    (more : received ≤ later) : Received later order :=
  { objects with known := fun node member => (objects.known node member).trans_le more }

private theorem mem_allocateNodes {received : Nat} {order : Order} {node : Node}
    (member : node ∈ (Config.allocateNodes received order).nodes) :
    ∃ index, ∃ inside : index < order.nodes.length,
      node = { order.nodes[index] with ref := (received, index) } := by
  simp only [Config.allocateNodes, List.mem_mapIdx] at member
  obtain ⟨index, inside, same⟩ := member
  exact ⟨index, inside, same.symm⟩

theorem Received.allocateNodes {received : Nat} {order : Order}
    (valid : validateOrderConstraints (Config.allocateNodes received order) = .ok ()) :
    Received (received + 1) (Config.allocateNodes received order) where
  baseNodes := (validateOrderConstraints_iff.mp valid).1.baseNodes
  objects node member other otherMember same := by
    obtain ⟨index, inside, rfl⟩ := mem_allocateNodes member
    obtain ⟨otherIndex, otherInside, rfl⟩ := mem_allocateNodes otherMember
    obtain rfl : index = otherIndex := (Prod.mk.inj same).2
    rfl
  known node member := by
    obtain ⟨index, inside, rfl⟩ := mem_allocateNodes member
    exact Nat.lt_succ_self received

/-- Released nodes of the current order remain when an order is stitched to it. -/
private theorem Received.mem_beforeHorizon {received : Nat} {order : Order}
    (objects : Received received order) {node : Node} (member : node ∈ order.nodes)
    (released : node.released) : node ∈ beforeHorizon (·.released) order.nodes := by
  obtain ⟨base, horizon, split, inBase, inHorizon⟩ := objects.baseNodes
  rw [split] at member ⊢
  rw [beforeHorizon_append inBase inHorizon]
  rcases List.mem_append.mp member with member | member
  · exact member
  · have unreleased : node.released = false := inHorizon node member
    rw [unreleased] at released
    cases released

private theorem mem_of_mem_beforeHorizon {order : Order} {node : Node}
    (member : node ∈ beforeHorizon (·.released) order.nodes) : node ∈ order.nodes := by
  unfold beforeHorizon at member
  split at member
  · exact member
  · exact List.mem_of_mem_take member

private theorem Received.released_beforeHorizon {received : Nat} {order : Order}
    (objects : Received received order) {node : Node}
    (member : node ∈ beforeHorizon (·.released) order.nodes) : node.released := by
  obtain ⟨base, horizon, split, inBase, inHorizon⟩ := objects.baseNodes
  rw [split, beforeHorizon_append inBase inHorizon] at member
  exact inBase node member

/-- The node that takes the place of a node of the current order. -/
private theorem replaceNode_cases {order : Order} {baseEnd node : Node} (stitching : Order)
    (objects : ∀ node ∈ order.nodes, ∀ other ∈ order.nodes, node.ref = other.ref → node = other)
    (found : currentBaseEnd order = some baseEnd) (member : node ∈ order.nodes) :
    replaceNode (stitchedBaseEnd baseEnd stitching) node =
      if node = baseEnd then stitchedBaseEnd baseEnd stitching else node := by
  have known := (currentBaseEnd_spec found).1
  by_cases same : node = baseEnd
  · rw [if_pos same, same]
    exact if_pos rfl
  · rw [if_neg same]
    refine if_neg fun sameObject => same ?_
    exact objects node member baseEnd known sameObject

private theorem replaceNode_place {order : Order} {baseEnd node : Node} (stitching : Order)
    (objects : ∀ node ∈ order.nodes, ∀ other ∈ order.nodes, node.ref = other.ref → node = other)
    (found : currentBaseEnd order = some baseEnd) (member : node ∈ order.nodes) :
    (replaceNode (stitchedBaseEnd baseEnd stitching) node).place = node.place ∧
      (replaceNode (stitchedBaseEnd baseEnd stitching) node).ref = node.ref := by
  rw [replaceNode_cases stitching objects found member]
  split
  · next same => exact ⟨by rw [same]; rfl, by rw [same]; rfl⟩
  · exact ⟨rfl, rfl⟩

theorem Received.stitchedOrder {received : Nat} {currentOrder order : Order} {baseEnd : Node}
    (objects : Received received currentOrder) (found : currentBaseEnd currentOrder = some baseEnd)
    (valid : validateOrderConstraints (Config.allocateNodes received order) = .ok ()) :
    Received (received + 1)
      (stitchedOrder currentOrder baseEnd (Config.allocateNodes received order)) := by
  have fresh := Received.allocateNodes valid
  have framed := (validateOrderConstraints_iff.mp valid).1
  have base : ∀ node ∈ (beforeHorizon (·.released) currentOrder.nodes).map
      (replaceNode (stitchedBaseEnd baseEnd (Config.allocateNodes received order))),
        ∃ original ∈ currentOrder.nodes, original.released ∧
          node = replaceNode (stitchedBaseEnd baseEnd (Config.allocateNodes received order))
            original ∧ node.place = original.place ∧ node.ref = original.ref := by
    intro node member
    obtain ⟨original, included, rfl⟩ := List.mem_map.mp member
    have known := mem_of_mem_beforeHorizon included
    exact ⟨original, known, objects.released_beforeHorizon included, rfl,
      replaceNode_place _ objects.objects found known⟩
  have tail : ∀ node ∈ (Config.allocateNodes received order).nodes.tail, node.ref.1 = received := by
    intro node member
    obtain ⟨index, inside, rfl⟩ := mem_allocateNodes (List.mem_of_mem_tail member)
    rfl
  constructor
  · refine (Library.baseFirst_append_released ?_).mpr framed.tail.1
    intro node member
    obtain ⟨original, -, released, -, place, -⟩ := base node member
    have flag : node.released = original.released := congrArg (·.2.2) place
    rw [flag]
    exact released
  · intro node member other otherMember same
    rcases List.mem_append.mp member with member | member <;>
      rcases List.mem_append.mp otherMember with otherMember | otherMember
    · obtain ⟨original, known, -, replaced, -, ref⟩ := base node member
      obtain ⟨otherOriginal, otherKnown, -, otherReplaced, -, otherRef⟩ := base other otherMember
      rw [ref, otherRef] at same
      rw [replaced, otherReplaced, objects.objects original known otherOriginal otherKnown same]
    · obtain ⟨original, known, -, -, -, ref⟩ := base node member
      have less := objects.known original known
      rw [← ref, same, tail other otherMember] at less
      exact absurd less (Nat.lt_irrefl _)
    · obtain ⟨original, known, -, -, -, ref⟩ := base other otherMember
      have less := objects.known original known
      rw [← ref, ← same, tail node member] at less
      exact absurd less (Nat.lt_irrefl _)
    · exact fresh.objects node (List.mem_of_mem_tail member) other
        (List.mem_of_mem_tail otherMember) same
  · intro node member
    rcases List.mem_append.mp member with member | member
    · obtain ⟨original, known, -, -, -, ref⟩ := base node member
      rw [ref]
      exact (objects.known original known).trans (Nat.lt_succ_self _)
    · rw [tail node member]
      exact Nat.lt_succ_self _

/-! ## The node in the position -/

def NodeState.Of (state : NodeState) (node : Node) : Prop :=
  state.nodeId = node.nodeId ∧ state.sequenceId = node.sequenceId

namespace Position

/-- A node of the current order that is still to be traversed. -/
structure Ahead (position : Position) (node : Node) : Prop where
  released : node.released
  inOrder : ∃ order, position.currentOrder = some order ∧ node ∈ order.nodes
  remaining : ∃ state ∈ position.nodeStates, state.Of node ∧ state.released

variable {position : Position} {node : Node}

theorem Ahead.supply (ahead : position.Ahead node) {state : PartialState}
    (nodeStates : state.nodeStates = none) : (position.supply state).Ahead node :=
  { ahead with remaining := by simpa [Position.supply, nodeStates] using ahead.remaining }

/-- Another node is traversed. -/
theorem Ahead.traverse (ahead : position.Ahead node) {other : Node} (traversedEdge : Option Edge)
    (different : ¬ (node.nodeId = other.nodeId ∧ node.sequenceId = other.sequenceId)) :
    (position.traverse other traversedEdge).Ahead node := by
  obtain ⟨state, member, ⟨sameId, sameSequence⟩, released⟩ := ahead.remaining
  refine { ahead with remaining := ⟨state, ?_, ⟨sameId, sameSequence⟩, released⟩ }
  refine List.mem_filter.mpr ⟨member, ?_⟩
  rw [sameId, sameSequence]
  by_contra removed
  exact different (by simpa using removed)

theorem Ahead.drivingToNextNode (ahead : position.Ahead node) {nextNode : Node}
    (same : node.nodeId = nextNode.nodeId ∧ node.sequenceId = nextNode.sequenceId) :
    Ahead
      { position with
        nodeStates := position.nodeStates.filter fun state =>
          state.nodeId = nextNode.nodeId && state.sequenceId = nextNode.sequenceId
        edgeStates := [] } node := by
  obtain ⟨state, member, ⟨sameId, sameSequence⟩, released⟩ := ahead.remaining
  refine { ahead with remaining := ⟨state, ?_, ⟨sameId, sameSequence⟩, released⟩ }
  refine List.mem_filter.mpr ⟨member, ?_⟩
  rw [sameId, sameSequence, same.1, same.2]
  simp

/-- The first node of an order begun while the vehicle is paused. -/
theorem Ahead.beginOrder {order : Order} (head : order.nodes.head? = some node)
    (released : node.released) (trajectory : TrajectoryHandler) (orderId : String) :
    (position.beginOrder trajectory order orderId).Ahead node where
  released := released
  inOrder := ⟨order, rfl, List.mem_of_head? head⟩
  remaining := by
    have member : node ∈ order.nodes := List.mem_of_head? head
    exact ⟨_, List.mem_map_of_mem member, ⟨rfl, rfl⟩, released⟩

/-- The node object may be replaced by an updated one when an order is stitched. -/
theorem Ahead.stitch {received : Nat} {currentOrder order : Order} {baseEnd : Node}
    (ahead : position.Ahead node) (current : position.currentOrder = some currentOrder)
    (objects : Received received currentOrder) (found : currentBaseEnd currentOrder = some baseEnd)
    (trajectory : TrajectoryHandler) :
    (position.stitch trajectory currentOrder baseEnd order).Ahead
      (replaceNode (stitchedBaseEnd baseEnd order) node) := by
  obtain ⟨known, same, member⟩ := ahead.inOrder
  obtain rfl : currentOrder = known := Option.some.inj (current.symm.trans same)
  obtain ⟨place, -⟩ := replaceNode_place order objects.objects found member
  have sameId := congrArg (·.1) place
  have sameSequence := congrArg (·.2.1) place
  have sameFlag := congrArg (·.2.2) place
  obtain ⟨state, listed, ⟨ofId, ofSequence⟩, stateReleased⟩ := ahead.remaining
  refine ⟨sameFlag.trans ahead.released, ⟨_, rfl, ?_⟩, state, ?_,
    ⟨ofId.trans sameId.symm, ofSequence.trans sameSequence.symm⟩, stateReleased⟩
  · refine List.mem_append_left _ (List.mem_map_of_mem ?_)
    exact objects.mem_beforeHorizon member ahead.released
  · exact List.mem_append_left _ (List.mem_filter.mpr ⟨listed, stateReleased⟩)

end Position

/-! ## Canceled orders -/

/-- The order accepted last has not been canceled. -/
def NotCanceled (log : List Observation) : Prop :=
  ∀ past context cancelOrderContext future,
    log = past ++ .stopped context cancelOrderContext :: future →
      ∃ mode order, .orderAccepted mode order ∈ future

/-- Nothing is reserved but the cancelation of the order. -/
def orderReserve (order : Prop) : Reserve where
  order := order

theorem NotCanceled.append {log observations : List Observation} (notCanceled : NotCanceled log)
    (permitted : ∀ observation ∈ observations, (orderReserve True).Permits observation) :
    NotCanceled (log ++ observations) := by
  intro past context cancelOrderContext future split
  rcases List.append_eq_append_iff.mp split with ⟨middle, -, rest⟩ | ⟨middle, same, rest⟩
  · have member : Observation.stopped context cancelOrderContext ∈ observations := by
      rw [rest]
      simp
    exact absurd trivial (permitted _ member)
  · cases middle with
    | nil =>
        have member : Observation.stopped context cancelOrderContext ∈ observations := by
          rw [List.nil_append] at rest
          simp [← rest]
        exact absurd trivial (permitted _ member)
    | cons head middle =>
        obtain ⟨rfl, rfl⟩ := List.cons.inj rest
        obtain ⟨mode, order, accepted⟩ := notCanceled past context cancelOrderContext middle same
        exact ⟨mode, order, List.mem_append_left _ accepted⟩

theorem NotCanceled.accepted (log : List Observation) (mode : AcceptMode) (order : Order) :
    NotCanceled (log ++ [.orderAccepted mode order]) := by
  intro past context cancelOrderContext future split
  rcases List.eq_nil_or_concat' future with rfl | ⟨future, last, rfl⟩
  · have last := congrArg List.getLast? split
    simp at last
  · rw [← List.cons_append, ← List.append_assoc] at split
    obtain ⟨-, same⟩ := List.append_inj' split rfl
    obtain rfl := List.singleton_inj.mp same
    exact ⟨mode, order, by simp⟩

/-! ## Runs -/

/-- The callback of an instant action `stopPause` that resumes a parked node. -/
def resumesPausedNode (context : ActionContext) (change : ActionStatusChangeInfo) : Bool :=
  context.scope = .instant && context.action.actionType = "stopPause" &&
    change.actionStatus = .finished

/-- The node whose traversal is completed is not the parked one. -/
def Frame.SparesParkedNode (parked : Option Node) : Frame → Prop
  | .nodeTraversed node _ => ∀ pausedNode ∈ parked,
      ¬ (pausedNode.nodeId = node.nodeId ∧ pausedNode.sequenceId = node.sequenceId)
  | _ => True

/-- The pause ends by an instant action `stopPause` only as long as a node is
parked, and the node stays ahead of the vehicle. -/
def KeepsParkedNode (c : Config) : Event → Prop
  | .proceed => ∀ frame ∈ c.stack.head?, frame.SparesParkedNode c.agv.currentPausedNode
  | .updateActionStatus context change =>
      change.linkedState.paused = some false →
        resumesPausedNode context change ∨ c.agv.currentPausedNode = none ∨
          .resumePausedNode ∈ c.stack
  | .edgeTraversed context =>
      c.agv.isPaused → c.agv.hasCancelingOrder = false →
        ∀ endNode ∈ context.endNode, endNode.released → c.position.Ahead endNode
  | .stopped _ => c.agv.currentPausedNode = none
  | .drivingToNextNode nextNode => ∀ parked ∈ c.agv.currentPausedNode,
      parked.nodeId = nextNode.nodeId ∧ parked.sequenceId = nextNode.sequenceId
  | .updatePartialState newState _ =>
      newState.paused = some false →
        c.agv.currentPausedNode = none ∨ .resumePausedNode ∈ c.stack
  | _ => True

/-- A parked node is ahead, and the vehicle paused until the node is resumed. -/
structure Parking (c : Config) : Prop where
  order : ∀ order, c.agv.currentOrder = some order → Received c.received order
  notCanceled : c.agv.currentState.nodeStates ≠ [] → NotCanceled c.log
  ahead : ∀ node, c.agv.currentPausedNode = some node → c.position.Ahead node
  paused : c.crashed = false → c.agv.currentPausedNode ≠ none →
    c.position.paused = some true ∨ .resumePausedNode ∈ c.stack

theorem Parking.initial (limit : Nat) : Parking (Config.initial limit) where
  order order current := by cases current
  notCanceled states := absurd rfl states
  ahead node parked := by cases parked
  paused _ parked := absurd rfl parked

namespace Config

variable (c : Config)

private theorem sparesScope_orderReserve (order : Prop) (scope : ActionScope) :
    SparesScope (orderReserve order) c scope := by
  intro owner found
  cases owner with
  | node node => exact ⟨id, fun order current edge found => ⟨id, id⟩⟩
  | edge edge => exact ⟨id, id⟩

private theorem disregards_orderReserve {order : Prop} {event : Event}
    (notAccepted : c.acceptedOrder event = none)
    (notStopped : ∀ context, event = .stopped context → ¬ order) :
    Disregards (orderReserve order) c event := by
  have instant : ∀ action : Action, SparesInstant (orderReserve order) action :=
    fun action => ⟨id, fun _ _ => id⟩
  cases event with
  | proceed =>
      intro frame top
      cases frame with
      | processNodeAction node action stopDriving => exact id
      | processEdgeAction edge action stopDriving => exact id
      | nodeTraversed node traversedEdge =>
          exact sparesScope_orderReserve c order (.node node) _ rfl
      | resumePausedNode =>
          exact fun node parked => sparesScope_orderReserve c order (.node node) _ rfl
      | processInstantAction action stopDriving => exact fun action found => instant action
      | processInstantActions i stopIndex stopDriving => exact fun action found => instant action
      | _ => trivial
  | order received adapter =>
      intro mode accepted
      simp [acceptedOrder, accepted] at notAccepted
  | updateActionStatus context change =>
      exact ⟨id, fun _ => False.elim, sparesScope_orderReserve c order _⟩
  | edgeTraversed context => exact fun endNode arrived => sparesScope_orderReserve c order _
  | stopped context =>
      exact ⟨notStopped context rfl, fun _ _ => ⟨id, sparesScope_orderReserve c order _⟩⟩
  | updatePartialState newState reportImmediately => exact fun _ => False.elim
  | published succeeded => exact fun _ _ => id
  | _ => trivial

/-- The callback that resumes a parked node makes the call to do so. -/
private theorem resumePausedNode_mem_adapterReports {context : ActionContext}
    {change : ActionStatusChangeInfo} (resumes : resumesPausedNode context change)
    (running : (c.adapterReports context change).crashed = false) :
    .resumePausedNode ∈ (c.adapterReports context change).stack := by
  obtain ⟨middle, resuming, same⟩ : ∃ middle : Config, .resumePausedNode ∈ middle.stack ∧
      c.adapterReports context change = middle.updateActionStatus context change :=
    ⟨_, List.mem_cons_self, if_pos resumes⟩
  rw [same] at running ⊢
  have leaves : Leaves (orderReserve False) middle (middle.updateActionStatus context change) :=
    updateActionStatus_leaves _ id (fun _ => False.elim) (sparesScope_orderReserve _ _ _)
  obtain ⟨-, frames, stack, -⟩ := leaves.stack running
  rw [stack]
  exact List.mem_append_right _ resuming

/-- Node states are only removed. -/
private theorem nextPosition_nodeStates {event : Event} (notAccepted : c.acceptedOrder event = none)
    (contract : AdapterContract c event) :
    (c.nextPosition event).nodeStates.Sublist c.position.nodeStates := by
  have arrived : ∀ (position : Position) (node : Node) (traversedEdge : Option Edge),
      (position.arrive node traversedEdge).nodeStates.Sublist position.nodeStates := by
    intro position node traversedEdge
    unfold Position.arrive
    split
    · exact .refl _
    · split
      · exact .refl _
      · cases traversedEdge with
        | none => exact List.filter_sublist
        | some edge => exact .refl _
  cases event with
  | proceed =>
      simp only [nextPosition, proceedPosition]
      split
      · exact List.filter_sublist
      · unfold Position.resume
        cases c.position.currentPausedNode with
        | none => exact .refl _
        | some pausedNode =>
            dsimp only
            split
            · exact .refl _
            · exact arrived _ pausedNode none
      · exact .refl _
  | order order adapter =>
      simp only [nextPosition, orderPosition]
      cases decided : c.agv.decideOrder adapter (allocateNodes c.received order) with
      | accept mode => simp [acceptedOrder, decided] at notAccepted
      | reject error => exact .refl _
      | discard => exact .refl _
  | updateActionStatus context change =>
      have none : change.linkedState.nodeStates = none := contract.2.2.2.1
      simp [nextPosition, Position.supply, none]
  | updatePartialState newState reportImmediately =>
      have none : newState.nodeStates = none := contract.2.1
      simp [nextPosition, Position.supply, none]
  | edgeTraversed context =>
      simp only [nextPosition]
      split
      · exact .refl _
      · cases context.endNode with
        | none => exact .refl _
        | some endNode => exact arrived _ endNode _
  | stopped context => exact List.nil_sublist _
  | drivingToNextNode nextNode => exact List.filter_sublist
  | _ => exact .refl _

end Config

namespace Position

/-- A vehicle that arrives at a node parks it, or keeps what is parked. -/
private theorem arrive_cases (position : Position) (node : Node) (edge : Edge) :
    position.arrive node (some edge) = position ∨
      node.released ∧ position.paused = some true ∧
        position.arrive node (some edge) = { position with currentPausedNode := some node } := by
  unfold Position.arrive
  cases released : node.released with
  | false => exact .inl rfl
  | true =>
      by_cases paused : position.paused = some true
      · exact .inr ⟨rfl, paused, if_pos paused⟩
      · exact .inl (if_neg paused)

/-- The first node of an order is parked or traversed, or nothing happens. -/
private theorem arrive_first_cases (position : Position) (node : Node) :
    (position.arrive node none).currentPausedNode = position.currentPausedNode ∨
      node.released ∧ position.paused = some true ∧
        position.arrive node none = { position with currentPausedNode := some node } := by
  unfold Position.arrive
  cases released : node.released with
  | false => exact .inl rfl
  | true =>
      by_cases paused : position.paused = some true
      · exact .inr ⟨rfl, paused, if_pos paused⟩
      · refine .inl ?_
        rw [if_neg (by simp), if_neg paused]
        rfl

/-- A parked node that is resumed is parked again as long as the pause lasts. -/
private theorem resume_cases (position : Position) (canceling : Bool) :
    (position.resume canceling).currentPausedNode = none ∨
      position.resume canceling = position ∧ position.paused = some true := by
  unfold Position.resume
  cases parked : position.currentPausedNode with
  | none => exact .inl parked
  | some pausedNode =>
      dsimp only
      cases canceling with
      | true => exact .inl rfl
      | false =>
          simp only [Bool.false_eq_true, if_false]
          unfold Position.arrive
          cases released : pausedNode.released with
          | false => exact .inl rfl
          | true =>
              by_cases paused : position.paused = some true
              · refine .inr ⟨?_, paused⟩
                rw [if_neg (by simp), if_pos paused, ← parked]
              · refine .inl ?_
                rw [if_neg (by simp), if_neg paused]
                rfl

end Position

namespace Parking

variable {c : Config} {event : Event}

/-- A node parked after an event is ahead. -/
private theorem ahead_nextPosition (parking : Parking c) (contract : AdapterContract c event)
    (keeps : KeepsParkedNode c event) (notAccepted : c.acceptedOrder event = none) {node : Node}
    (parked : (c.nextPosition event).currentPausedNode = some node) :
    (c.nextPosition event).Ahead node := by
  cases event with
  | proceed =>
      simp only [Config.nextPosition, Config.proceedPosition] at parked ⊢
      split at parked
      · next other traversedEdge stack top =>
        have different := keeps (.nodeTraversed other traversedEdge) (by rw [top]; rfl)
        exact (parking.ahead node parked).traverse traversedEdge (different node parked)
      · rcases c.position.resume_cases c.agv.hasCancelingOrder with none | ⟨same, -⟩
        · rw [none] at parked
          cases parked
        · rw [same] at parked ⊢
          exact parking.ahead node parked
      · exact parking.ahead node parked
  | order order adapter =>
      simp only [Config.nextPosition, Config.orderPosition] at parked ⊢
      cases decided : c.agv.decideOrder adapter (Config.allocateNodes c.received order) with
      | accept mode => simp [Config.acceptedOrder, decided] at notAccepted
      | reject error =>
          rw [decided] at parked
          exact parking.ahead node parked
      | discard =>
          rw [decided] at parked
          exact parking.ahead node parked
  | updateActionStatus context change => exact (parking.ahead node parked).supply contract.2.2.2.1
  | updatePartialState newState reportImmediately =>
      exact (parking.ahead node parked).supply contract.2.1
  | edgeTraversed context =>
      simp only [Config.nextPosition] at parked ⊢
      cases canceling : c.agv.hasCancelingOrder with
      | true =>
          rw [canceling] at parked
          exact parking.ahead node parked
      | false =>
          rw [canceling] at parked
          cases arrived : context.endNode with
          | none =>
              rw [arrived] at parked
              exact parking.ahead node parked
          | some endNode =>
              rw [arrived] at parked
              simp only [Bool.false_eq_true, if_false] at parked ⊢
              rcases c.position.arrive_cases endNode context.edge with
                same | ⟨released, paused, parks⟩
              · rw [same] at parked ⊢
                exact parking.ahead node parked
              · rw [parks] at parked ⊢
                obtain rfl := Option.some.inj parked
                have ahead := keeps (decide_eq_true paused) canceling endNode arrived released
                exact ⟨ahead.released, ahead.inOrder, ahead.remaining⟩
  | stopped context =>
      have none : c.agv.currentPausedNode = none := keeps
      have some : c.agv.currentPausedNode = some node := parked
      rw [none] at some
      cases some
  | drivingToNextNode nextNode =>
      exact (parking.ahead node parked).drivingToNextNode (keeps node parked)
  | _ => exact parking.ahead node parked

/-- The pause may end only with a call to resume the node. -/
private theorem paused_of_supply (parking : Parking c) (running : c.crashed = false)
    (parked : c.agv.currentPausedNode ≠ none) {paused : Option Bool} {stack : List Frame}
    (stays : ∀ frame ∈ c.stack, frame ∈ stack)
    (ends : paused = some false → .resumePausedNode ∈ stack) :
    (paused <|> c.position.paused) = some true ∨ .resumePausedNode ∈ stack := by
  cases paused with
  | none =>
      rcases parking.paused running parked with paused | resuming
      · exact .inl paused
      · exact .inr (stays _ resuming)
  | some paused =>
      cases paused with
      | true => exact .inl rfl
      | false => exact .inr (ends rfl)

private theorem paused_nextPosition (parking : Parking c) (keeps : KeepsParkedNode c event)
    (notAccepted : c.acceptedOrder event = none) (running : (c.perform event).crashed = false)
    (parked : (c.nextPosition event).currentPausedNode ≠ none) :
    (c.nextPosition event).paused = some true ∨ .resumePausedNode ∈ (c.perform event).stack := by
  have disregards : Config.Disregards (orderReserve False) c event :=
    c.disregards_orderReserve notAccepted fun _ _ => id
  have leaves := Config.perform_leaves c disregards
  obtain ⟨before, frames, stack, -⟩ := leaves.stack running
  have before : c.crashed = false := before
  have stays : ∀ frame ∈ c.remainingStack event, frame ∈ (c.perform event).stack := by
    intro frame member
    rw [stack]
    exact List.mem_append_right _ member
  -- the pause and what is parked are as before
  have same : c.agv.currentPausedNode ≠ none → (∀ frame ∈ c.stack, frame = .resumePausedNode →
      frame ∈ c.remainingStack event) → c.position.paused = some true ∨
        .resumePausedNode ∈ (c.perform event).stack := by
    intro parked remains
    rcases parking.paused before parked with paused | resuming
    · exact .inl paused
    · exact .inr (stays _ (remains _ resuming rfl))
  cases event with
  | proceed =>
      simp only [Config.nextPosition, Config.proceedPosition] at parked ⊢
      cases top : c.stack with
      | nil =>
          rw [top] at parked same
          exact same parked (fun frame member => absurd member List.not_mem_nil)
      | cons frame rest =>
          have popped : c.remainingStack .proceed = rest := by simp [Config.remainingStack, top]
          rw [top] at parked same
          rw [popped] at same
          cases frame with
          | resumePausedNode =>
              dsimp only at parked ⊢
              rcases c.position.resume_cases c.agv.hasCancelingOrder with none | ⟨resumed, paused⟩
              · exact absurd none parked
              · rw [resumed]
                exact .inl paused
          | _ =>
              refine same parked fun frame member resumes => ?_
              cases member with
              | head => cases resumes
              | tail _ member => exact member
  | order order adapter =>
      simp only [Config.nextPosition, Config.orderPosition] at parked ⊢
      cases decided : c.agv.decideOrder adapter (Config.allocateNodes c.received order) with
      | accept mode => simp [Config.acceptedOrder, decided] at notAccepted
      | reject error =>
          rw [decided] at parked
          exact same parked fun frame member _ => member
      | discard =>
          rw [decided] at parked
          exact same parked fun frame member _ => member
  | updateActionStatus context change =>
      refine parking.paused_of_supply before parked stays fun ends => ?_
      rcases keeps ends with resumes | none | resuming
      · exact c.resumePausedNode_mem_adapterReports resumes running
      · exact absurd none parked
      · exact stays _ resuming
  | updatePartialState newState reportImmediately =>
      refine parking.paused_of_supply before parked stays fun ends => ?_
      rcases keeps ends with none | resuming
      · exact absurd none parked
      · exact stays _ resuming
  | edgeTraversed context =>
      simp only [Config.nextPosition] at parked ⊢
      cases canceling : c.agv.hasCancelingOrder with
      | true =>
          rw [canceling] at parked
          exact same parked fun frame member _ => member
      | false =>
          rw [canceling] at parked
          cases arrived : context.endNode with
          | none =>
              rw [arrived] at parked
              exact same parked fun frame member _ => member
          | some endNode =>
              rw [arrived] at parked
              simp only [Bool.false_eq_true, if_false] at parked ⊢
              rcases c.position.arrive_cases endNode context.edge with kept | ⟨-, paused, parks⟩
              · rw [kept] at parked ⊢
                exact same parked fun frame member _ => member
              · rw [parks]
                exact .inl paused
  | stopped context =>
      have none : c.agv.currentPausedNode = none := keeps
      exact absurd none parked
  | _ => exact same parked fun frame member _ => member

/-- What every event but the acceptance of an order preserves. -/
theorem perform (parking : Parking c) (contract : AdapterContract c event)
    (keeps : KeepsParkedNode c event) (notAccepted : c.acceptedOrder event = none) :
    Parking (c.perform event) := by
  have position := Config.perform_position c event
  have disregards : Config.Disregards (orderReserve False) c event :=
    c.disregards_orderReserve notAccepted fun _ _ => id
  have leaves := Config.perform_leaves c disregards
  have parkedSame : (c.perform event).agv.currentPausedNode =
      (c.nextPosition event).currentPausedNode := congrArg Position.currentPausedNode position
  constructor
  · intro order current
    rw [leaves.currentOrder] at current
    exact (parking.order order current).mono leaves.received
  · intro states
    have sublist := c.nextPosition_nodeStates notAccepted contract
    rw [← position] at sublist
    have before : c.agv.currentState.nodeStates ≠ [] := by
      intro none
      have empty : c.position.nodeStates = [] := none
      rw [empty] at sublist
      exact states (List.sublist_nil.mp sublist)
    by_cases stops : ∃ context, event = .stopped context
    · obtain ⟨context, rfl⟩ := stops
      exact absurd (congrArg Position.nodeStates position) states
    · have others : Config.Disregards (orderReserve True) c event :=
        c.disregards_orderReserve notAccepted fun context stop _ => stops ⟨context, stop⟩
      obtain ⟨observations, log, permitted⟩ := (Config.perform_leaves c others).log
      rw [log]
      exact (parking.notCanceled before).append permitted
  · intro node parked
    rw [parkedSame] at parked
    rw [position]
    exact parking.ahead_nextPosition contract keeps notAccepted parked
  · intro running parked
    rw [parkedSame] at parked
    rw [position]
    exact parking.paused_nextPosition keeps notAccepted running parked

/-- An order other than a stitching one is only accepted if no node is parked. -/
private theorem notParked (parking : Parking c) (inactive : c.agv.hasActiveOrder = false) :
    c.agv.currentPausedNode = none := by
  cases parked : c.agv.currentPausedNode with
  | none => rfl
  | some node =>
      obtain ⟨state, member, -⟩ := (parking.ahead node parked).remaining
      have states : c.agv.currentState.nodeStates.isEmpty = false := by
        rw [List.isEmpty_eq_false_iff_exists_mem]
        exact ⟨state, member⟩
      simp [hasActiveOrder, states] at inactive

/-- What is parked when an order has been begun is its first node. -/
private theorem ahead_begun {order : Order} (parking : Parking c)
    (inactive : c.agv.hasActiveOrder = false)
    (trajectory : TrajectoryHandler) (orderId : String) {firstNode : Node}
    (head : order.nodes.head? = some firstNode) {node : Node}
    (parked : ((c.position.beginOrder trajectory order orderId).arrive firstNode
      none).currentPausedNode = some node) :
    ((c.position.beginOrder trajectory order orderId).arrive firstNode none).Ahead node ∧
      ((c.position.beginOrder trajectory order orderId).arrive firstNode none).paused =
        some true := by
  have nothing : (c.position.beginOrder trajectory order orderId).currentPausedNode = none :=
    parking.notParked inactive
  rcases (c.position.beginOrder trajectory order orderId).arrive_first_cases firstNode with
    same | ⟨released, paused, parks⟩
  · rw [same, nothing] at parked
    cases parked
  · rw [parks] at parked ⊢
    obtain rfl := Option.some.inj parked
    have ahead : (c.position.beginOrder trajectory order orderId).Ahead firstNode :=
      .beginOrder head released trajectory orderId
    exact ⟨⟨ahead.released, ahead.inOrder, ahead.remaining⟩, paused⟩

end Parking

namespace Config

/-- The acceptance of an order comes first in the log. -/
private theorem acceptOrder_leaves (c : Config) (trajectory : TrajectoryHandler) (order : Order)
    (mode : AcceptMode) :
    ∃ middle, middle.log = c.log ++ [.orderAccepted mode order] ∧
      middle.received = c.received ∧
      Leaves (orderReserve True) middle (c.acceptOrder trajectory order mode) := by
  have begun : ∀ mode, (c.beginOrder trajectory order mode).received = c.received := by
    intro mode
    unfold beginOrder
    simp [observe]
  have spares := fun (c : Config) (node : Node) =>
    sparesScope_orderReserve c True (.node node) _ rfl
  have processed : ∀ (c : Config) (node : Node),
      Leaves (orderReserve True) c (c.processNode node none) := fun c node =>
    processNode_leaves c (spares c node).1 (spares c node).2 none
  cases mode with
  | new =>
      refine ⟨_, beginOrder_log c trajectory order .new, begun .new, ?_⟩
      simp only [acceptOrder]
      cases order.nodes.head? with
      | none => exact .throwTypeError _
      | some firstNode => exact processed _ firstNode
  | update =>
      refine ⟨_, beginOrder_log c trajectory order .update, begun .update, ?_⟩
      simp only [acceptOrder]
      cases order.nodes.head? with
      | none => exact .throwTypeError _
      | some firstNode => exact processed _ firstNode
  | stitch =>
      simp only [acceptOrder]
      cases c.agv.currentOrder with
      | none => exact ⟨c.observe (.orderAccepted .stitch order), rfl, rfl, .throwTypeError _⟩
      | some currentOrder =>
          dsimp only
          cases currentBaseEnd currentOrder with
          | none => exact ⟨c.observe (.orderAccepted .stitch order), rfl, rfl, .throwTypeError _⟩
          | some baseEnd =>
              refine ⟨_, stitchOrder_log c trajectory currentOrder baseEnd order, ?_, ?_⟩
              · unfold stitchOrder
                simp [observe, replaceNode]
              · dsimp only
                split
                · exact drive_leaves _ (spares _ (stitchedBaseEnd baseEnd order)).2
                · exact .refl _

end Config

namespace Position

private theorem accept_currentOrder {position : Position} (trajectory : TrajectoryHandler)
    {order : Order} {mode : AcceptMode} {next : Order}
    (accepted : (position.accept trajectory order mode).currentOrder = some next) :
    next = order ∨ (mode = .stitch ∧ ∃ currentOrder, position.currentOrder = some currentOrder ∧
      (next = currentOrder ∨ ∃ baseEnd, currentBaseEnd currentOrder = some baseEnd ∧
        next = stitchedOrder currentOrder baseEnd order)) := by
  have begun : ∀ (begun : Position) (firstNode : Node), begun.currentOrder = some order →
      (begun.arrive firstNode none).currentOrder = some order := fun begun firstNode current =>
    (arrive_sameOrder begun firstNode none).currentOrder.trans current
  cases mode with
  | new =>
      simp only [accept] at accepted
      cases head : order.nodes.head? with
      | none =>
          simp only [head] at accepted
          exact .inl (Option.some.inj accepted).symm
      | some firstNode =>
          simp only [head] at accepted
          exact .inl (Option.some.inj (accepted.symm.trans (begun _ firstNode rfl)))
  | update =>
      simp only [accept] at accepted
      cases head : order.nodes.head? with
      | none =>
          simp only [head] at accepted
          exact .inl (Option.some.inj accepted).symm
      | some firstNode =>
          simp only [head] at accepted
          exact .inl (Option.some.inj (accepted.symm.trans (begun _ firstNode rfl)))
  | stitch =>
      refine .inr ⟨rfl, ?_⟩
      simp only [accept] at accepted
      cases current : position.currentOrder with
      | none =>
          simp only [current] at accepted
          cases accepted
      | some currentOrder =>
          simp only [current] at accepted
          refine ⟨currentOrder, rfl, ?_⟩
          cases found : currentBaseEnd currentOrder with
          | none =>
              simp only [found, current] at accepted
              exact .inl (Option.some.inj accepted).symm
          | some baseEnd =>
              simp only [found] at accepted
              exact .inr ⟨baseEnd, rfl, (Option.some.inj accepted).symm⟩

end Position

namespace Parking

variable {c : Config}

/-- What is parked when an order has been accepted. -/
private theorem parked_accept (parking : Parking c) {order : Order} {adapter : AdapterAnswers}
    {mode : AcceptMode} (idle : c.stack = []) (running : c.crashed = false)
    (accepted : c.agv.decideOrder adapter order = .accept mode) {node : Node}
    (parked : (c.position.accept adapter.trajectory order mode).currentPausedNode = some node) :
    (c.position.accept adapter.trajectory order mode).Ahead node ∧
      (c.position.accept adapter.trajectory order mode).paused = some true := by
  have accepts := decideOrder_accept accepted
  obtain ⟨firstNode, nodes, split, -⟩ := head_released_of_validateOrderConstraints accepts.valid
  have head : order.nodes.head? = some firstNode := by rw [split]; rfl
  cases mode with
  | new =>
      simp only [Position.accept, head] at parked ⊢
      exact parking.ahead_begun (accepts.inactive (by simp)) _ _ head parked
  | update =>
      simp only [Position.accept, head] at parked ⊢
      exact parking.ahead_begun (accepts.inactive (by simp)) _ _ head parked
  | stitch =>
      obtain ⟨currentOrder, baseEnd, current, found⟩ :=
        isOrderBaseStitching_spec (accepts.stitches rfl).2
      have sameOrder : c.position.currentOrder = some currentOrder := current
      simp only [Position.accept, sameOrder, found] at parked ⊢
      obtain ⟨before, known, rfl⟩ := Option.map_eq_some_iff.mp parked
      have ahead := parking.ahead before known
      refine ⟨ahead.stitch sameOrder (parking.order currentOrder current) found _, ?_⟩
      have notNone : c.agv.currentPausedNode ≠ none := by
        intro none
        have known : c.agv.currentPausedNode = some before := known
        rw [none] at known
        cases known
      rcases parking.paused running notNone with paused | resuming
      · exact paused
      · rw [idle] at resuming
        cases resuming

theorem accept (parking : Parking c) {order : Order} {adapter : AdapterAnswers} {mode : AcceptMode}
    (idle : c.stack = []) (running : c.crashed = false)
    (accepted : c.agv.decideOrder adapter (Config.allocateNodes c.received order) = .accept mode) :
    Parking (c.perform (.order order adapter)) := by
  have position : (c.perform (.order order adapter)).position =
      c.position.accept adapter.trajectory (Config.allocateNodes c.received order) mode := by
    rw [Config.perform_position]
    simp only [Config.nextPosition, Config.orderPosition, accepted]
  have parkedSame := congrArg Position.currentPausedNode position
  have valid := (decideOrder_accept accepted).valid
  obtain ⟨middle, log, received, leaves⟩ := Config.acceptOrder_leaves
    { c with received := c.received + 1 } adapter.trajectory
      (Config.allocateNodes c.received order) mode
  have performed : c.perform (.order order adapter) =
      ({ c with received := c.received + 1 } : Config).acceptOrder adapter.trajectory
        (Config.allocateNodes c.received order) mode := by
    simp only [Config.perform, Config.processOrder, accepted]
  rw [← performed] at leaves
  have more : c.received + 1 ≤ (c.perform (.order order adapter)).received := by
    have before : c.received + 1 = middle.received := received.symm
    exact before.trans_le leaves.received
  constructor
  · intro next current
    have same := congrArg Position.currentOrder position
    have found := same.symm.trans current
    refine Received.mono ?_ more
    rcases Position.accept_currentOrder _ found with
      rfl | ⟨-, currentOrder, known, rfl | ⟨baseEnd, base, rfl⟩⟩
    · exact .allocateNodes valid
    · exact (parking.order next known).mono (Nat.le_succ _)
    · exact (parking.order currentOrder known).stitchedOrder base valid
  · intro _
    obtain ⟨observations, later, permitted⟩ := leaves.log
    rw [later, log]
    exact (NotCanceled.accepted _ _ _).append permitted
  · intro node parked
    rw [position]
    exact (parking.parked_accept idle running accepted (parkedSame.symm.trans parked)).1
  · intro _ parked
    obtain ⟨node, parked⟩ := Option.ne_none_iff_exists'.mp parked
    rw [position]
    exact .inl (parking.parked_accept idle running accepted (parkedSame.symm.trans parked)).2

end Parking

/-- The parked node belongs to the order being executed. -/
structure ParkedNode (c : Config) (node : Node) : Prop where
  paused : c.agv.isPaused
  active : ∃ order, c.agv.currentOrder = some order ∧ node ∈ order.nodes
  notCanceled : NotCanceled c.log
  remaining : ∃ state ∈ c.agv.currentState.nodeStates, state.Of node

theorem Parking.of_run {limit : Nat} {events : List Event} {c : Config}
    (run : Library.Run Config.step (fun c event => AdapterContract c event ∧ KeepsParkedNode c event)
      (Config.initial limit) events c) : Parking c := by
  refine run.invariant Parking (Parking.initial limit) ?_
  intro events c event next run parking permitted stepped
  obtain ⟨contract, keeps⟩ := permitted
  obtain ⟨enabled, rfl⟩ := Config.step_eq_some.mp stepped
  cases accepted : c.acceptedOrder event with
  | none => exact parking.perform contract keeps accepted
  | some order =>
      obtain ⟨received, adapter, mode, rfl, rfl, decided⟩ := Config.acceptedOrder_eq_some c accepted
      have idle : c.isIdle := enabled
      simp only [Config.isIdle, Bool.and_eq_true, Bool.not_eq_true', List.isEmpty_iff] at idle
      exact parking.accept idle.2 idle.1 decided

/-- Whenever no call of the controller is on the stack a parked node is one of
the active order, which is paused. -/
theorem parkedNode_of_run {limit : Nat} {events : List Event} {c : Config}
    (run : Library.Run Config.step (fun c event => AdapterContract c event ∧ KeepsParkedNode c event)
      (Config.initial limit) events c) (idle : c.isIdle) {node : Node}
    (parked : c.agv.currentPausedNode = some node) : ParkedNode c node := by
  have parking := Parking.of_run run
  simp only [Config.isIdle, Bool.and_eq_true, Bool.not_eq_true', List.isEmpty_iff] at idle
  have ahead := parking.ahead node parked
  obtain ⟨state, member, same, -⟩ := ahead.remaining
  constructor
  · rcases parking.paused idle.1 (by simp [parked]) with paused | resuming
    · exact decide_eq_true paused
    · rw [idle.2] at resuming
      cases resuming
  · exact ahead.inOrder
  · apply parking.notCanceled
    intro none
    have member : state ∈ c.agv.currentState.nodeStates := member
    rw [none] at member
    cases member
  · exact ⟨state, member, same⟩

instance (state : NodeState) (node : Node) : Decidable (state.Of node) :=
  inferInstanceAs (Decidable (_ ∧ _))

instance (position : Position) (node : Node) : Decidable (position.Ahead node) :=
  decidable_of_iff (node.released ∧ (∃ order ∈ position.currentOrder, node ∈ order.nodes) ∧
      ∃ state ∈ position.nodeStates, state.Of node ∧ state.released)
    ⟨fun ahead => ⟨ahead.1, ahead.2.1, ahead.2.2⟩,
      fun ahead => ⟨ahead.released, ahead.inOrder, ahead.remaining⟩⟩

instance (parked : Option Node) (frame : Frame) : Decidable (frame.SparesParkedNode parked) :=
  match frame with
  | .nodeTraversed node _ =>
      inferInstanceAs (Decidable (∀ pausedNode ∈ parked,
        ¬ (pausedNode.nodeId = node.nodeId ∧ pausedNode.sequenceId = node.sequenceId)))
  | .adapter | .finishEdgeActions .. | .processNodeAction .. | .processEdgeAction ..
  | .cancelOrderActions .. | .processInstantActionChunk .. | .processInstantActions ..
  | .processInstantAction .. | .resumePausedNode => isTrue trivial

instance (c : Config) (event : Event) : Decidable (KeepsParkedNode c event) :=
  match event with
  | .proceed =>
      inferInstanceAs (Decidable (∀ frame ∈ c.stack.head?,
        frame.SparesParkedNode c.agv.currentPausedNode))
  | .updateActionStatus context change =>
      inferInstanceAs (Decidable (change.linkedState.paused = some false →
        resumesPausedNode context change ∨ c.agv.currentPausedNode = none ∨
          .resumePausedNode ∈ c.stack))
  | .edgeTraversed context =>
      inferInstanceAs (Decidable (c.agv.isPaused → c.agv.hasCancelingOrder = false →
        ∀ endNode ∈ context.endNode, endNode.released → c.position.Ahead endNode))
  | .stopped _ => inferInstanceAs (Decidable (c.agv.currentPausedNode = none))
  | .drivingToNextNode nextNode =>
      inferInstanceAs (Decidable (∀ parked ∈ c.agv.currentPausedNode,
        parked.nodeId = nextNode.nodeId ∧ parked.sequenceId = nextNode.sequenceId))
  | .updatePartialState newState _ =>
      inferInstanceAs (Decidable (newState.paused = some false →
        c.agv.currentPausedNode = none ∨ .resumePausedNode ∈ c.stack))
  | .order .. | .invalidOrder .. | .instantActions .. | .invalidInstantActions ..
  | .updateErrors .. | .publishTimer | .published _ | .connection _ => isTrue trivial

/-- The vehicle is paused by a button when it arrives at the end of its edge. -/
def pausedArrival : List Event :=
  [.order (driveOrder "order" [] [] []) {}, .proceed,
    .updatePartialState { paused := some true } true, .edgeTraversed (driveContext [] [] [])]

theorem parkedNode_of_pausedArrival :
    ∃ c node, Library.Run Config.step (fun c event => AdapterContract c event ∧
        KeepsParkedNode c event) (Config.initial 5) pausedArrival c ∧
      c.agv.currentPausedNode = some node ∧ ParkedNode c node := by
  have passed : (Library.execute Config.step (fun c event => AdapterContract c event ∧
      KeepsParkedNode c event) (Config.initial 5) pausedArrival).any
        (fun c => decide (c.isIdle ∧ c.agv.currentPausedNode.isSome)) = true := by decide
  obtain ⟨c, run, found⟩ := Library.exists_run_of_execute passed
  obtain ⟨idle, parked⟩ := of_decide_eq_true found
  obtain ⟨node, parked⟩ := Option.isSome_iff_exists.mp parked
  exact ⟨c, node, run, parked, parkedNode_of_run run idle parked⟩

/-- The pause is ended by the button, too, and the node remains parked. -/
theorem not_parkedNode_of_pausedArrival :
    ∃ c node, ControllerRun (fun _ _ => True) 5
        (pausedArrival ++ [.updatePartialState { paused := some false } true]) c ∧
      c.isIdle ∧ c.agv.currentPausedNode = some node ∧ ¬ ParkedNode c node := by
  obtain ⟨c, run, found⟩ := ControllerRun.exists_of_execute (fun _ _ => True) 5
    (pausedArrival ++ [.updatePartialState { paused := some false } true])
    (fun c => c.isIdle && c.agv.currentPausedNode.isSome && !c.agv.isPaused) (by decide)
  simp only [Bool.and_eq_true, Bool.not_eq_true'] at found
  obtain ⟨⟨idle, parked⟩, moving⟩ := found
  obtain ⟨node, parked⟩ := Option.isSome_iff_exists.mp parked
  refine ⟨c, node, run, idle, parked, fun belongs => ?_⟩
  have paused := belongs.paused
  rw [moving] at paused
  cases paused

end Vda5050
