import Vda5050.MasterController.Chains
import Vda5050.MasterController.Isolation
import Vda5050.MasterController.FinishedOrder
import Vda5050.Library.Trace

/-!
# The callback protocol of an order

The end of an order is reported once and after everything else about the order,
and only nodes and edges of the base are reported as traversed, provided that
States bring no news for an order that has been reported as processed while it
is still active, and never name a node of the horizon as traversed.
-/

set_option autoImplicit false

namespace Vda5050

namespace MasterController

/-! ## What is required of callbacks -/

/-- The cache of the order that is reported as processed. -/
def Notification.processedCache : Notification → Option Nat
  | .orderProcessed cache .. => some cache
  | _ => none

/-- The cache of the order whose node or edge is reported. -/
def Notification.traversedCache : Notification → Option Nat
  | .nodeTraversed cache .. | .edgeTraversing cache .. | .edgeTraversed cache .. => some cache
  | _ => none

theorem orderCache_of_processedCache {notification : Notification} {ref : Nat}
    (reported : notification.processedCache = some ref) : notification.orderCache = some ref := by
  cases notification with
  | orderProcessed => exact reported
  | nodeTraversed | edgeTraversing | edgeTraversed | actionStateChanged
  | instantActionStateChanged | instantActionError => cases reported

private theorem orderCache_of_traversedCache {notification : Notification} {ref : Nat}
    (traversed : notification.traversedCache = some ref) :
    notification.orderCache = some ref := by
  cases notification with
  | nodeTraversed | edgeTraversing | edgeTraversed => exact traversed
  | orderProcessed | actionStateChanged | instantActionStateChanged
  | instantActionError => cases traversed

/-- Reported nodes and edges are released members of the combined order. -/
def Notification.IsInBase (caches : List OrderStateCache) : Notification → Prop
  | .nodeTraversed ref node _ _ =>
      ∃ cache, caches[ref]? = some cache ∧ node ∈ cache.combinedOrder.nodes ∧ node.released = true
  | .edgeTraversing ref edge .. | .edgeTraversed ref edge .. =>
      ∃ cache, caches[ref]? = some cache ∧ edge ∈ cache.combinedOrder.edges ∧ edge.released = true
  | _ => True

/-- Nothing is reported on an order after it has been reported as processed. -/
def NotAfterProcessed (earlier : List Notification) (notification : Notification) : Prop :=
  ∀ ref, notification.orderCache = some ref →
    ∀ other ∈ earlier, other.processedCache ≠ some ref

/-! ## What is required of States -/

def isListed (state : State) (node : Node) : Bool :=
  state.nodeStates.any fun s => s.nodeId = node.nodeId && s.sequenceId = node.sequenceId

/-- The node a State names as traversed is a node of the base. -/
structure NamesReleased (cache : OrderStateCache) (state : State) : Prop where
  first : cache.lastNodeTraversed = none →
    ∀ first, cache.combinedOrder.nodes.head? = some first →
      first.released = true ∨ isListed state first = true
  next : ∀ last, cache.lastNodeTraversed = some last →
    ∀ node, getNode cache.combinedOrder state.lastNodeId state.lastNodeSequenceId = some node →
      node.released = true ∨
        last.nodeId = state.lastNodeId ∧ last.sequenceId = state.lastNodeSequenceId

/-- The edge behind the last traversed node is as last reported. -/
def EdgeAsReported (cache : OrderStateCache) (state : State) : Prop :=
  ∀ lastNode, cache.lastNodeTraversed = some lastNode →
    ∀ edge, getNextReleasedEdge cache.combinedOrder lastNode = some edge →
      if state.edgeStates.any fun s => s.edgeId = edge.edgeId && s.sequenceId = edge.sequenceId then
        (∀ last, cache.lastEdgeStateChanges = some last → last = edgeStateValues state) ∧
          (cache.lastEdgeStateChanges = none → areAllBlockingActionsEnded lastNode state = false)
      else cache.lastEdgeProcessed = some edge

/-- A State has nothing to report on an order. -/
structure NoNews (isCanceling : Bool) (cache : OrderStateCache) (state : State) : Prop where
  actions : ∀ actionState ∈ state.actionStates,
    (cache.mappedActions.lookup actionState.actionId).isSome = true →
    (cache.lastActionStates.lookup actionState.actionId).map (·.actionStatus) =
      some actionState.actionStatus
  edge : isCanceling = true ∨ EdgeAsReported cache state
  first : cache.lastNodeTraversed = none →
    ∀ first, cache.combinedOrder.nodes.head? = some first → isListed state first = true
  next : ∀ last, cache.lastNodeTraversed = some last →
    ∀ node, getNode cache.combinedOrder state.lastNodeId state.lastNodeSequenceId = some node →
      last.nodeId = state.lastNodeId ∧ last.sequenceId = state.lastNodeSequenceId

/-- What a State is required to report on the order it is about. -/
def OrderlyState (m : MasterController) (agvId : AgvId) (state : State) : Prop :=
  ∀ ref, m.getOrderStateCache agvId state.orderId state.orderUpdateId = some ref →
    ∀ cache, m.orderStateCaches[ref]? = some cache →
      ∀ stitched, m.stitchOntoActiveOrder ref cache = some stitched →
        NamesReleased stitched.2 state ∧
          (stitched.2.isOrderProcessedHandlerInvoked = true →
            NoNews (stitched.1.isOrderCanceling stitched.2.agvId state [.running, .finished])
              stitched.2 state)

/-- No error rejects an order that has been reported as processed, and States
have no news for such an order. -/
def Orderly (m : MasterController) : MasterEvent → Prop
  | .continueDispatch => ∀ current, m.dispatching = some current →
      (∀ error, current.errors.head? = some error →
        ∀ ref, m.rejectedCache current.agvId error = some ref →
          ∀ cache, m.orderStateCaches[ref]? = some cache →
            cache.isOrderProcessedHandlerInvoked = false) ∧
        (current.errors = [] →
          OrderlyState { m with dispatching := none } current.agvId current.state)
  | _ => True

section

/-- At most one value has to be checked. -/
local instance decidableForallSome {Value : Type} (value : Option Value) (holds : Value → Prop)
    [DecidablePred holds] : Decidable (∀ x, value = some x → holds x) :=
  match value with
  | none => isTrue (by simp)
  | some x => decidable_of_iff (holds x) (by simp)

instance (cache : OrderStateCache) (state : State) : Decidable (NamesReleased cache state) :=
  decidable_of_iff
    ((cache.lastNodeTraversed = none →
        ∀ first, cache.combinedOrder.nodes.head? = some first →
          first.released = true ∨ isListed state first = true) ∧
      ∀ last, cache.lastNodeTraversed = some last →
        ∀ node, getNode cache.combinedOrder state.lastNodeId state.lastNodeSequenceId = some node →
          node.released = true ∨
            last.nodeId = state.lastNodeId ∧ last.sequenceId = state.lastNodeSequenceId)
    ⟨fun ⟨first, next⟩ => ⟨first, next⟩, fun names => ⟨names.first, names.next⟩⟩

instance (cache : OrderStateCache) (state : State) : Decidable (EdgeAsReported cache state) :=
  inferInstanceAs (Decidable (∀ _, _ → ∀ _, _ → _))

instance (isCanceling : Bool) (cache : OrderStateCache) (state : State) :
    Decidable (NoNews isCanceling cache state) :=
  decidable_of_iff
    ((∀ actionState ∈ state.actionStates,
        (cache.mappedActions.lookup actionState.actionId).isSome = true →
        (cache.lastActionStates.lookup actionState.actionId).map (·.actionStatus) =
          some actionState.actionStatus) ∧
      (isCanceling = true ∨ EdgeAsReported cache state) ∧
      (cache.lastNodeTraversed = none →
        ∀ first, cache.combinedOrder.nodes.head? = some first → isListed state first = true) ∧
      ∀ last, cache.lastNodeTraversed = some last →
        ∀ node, getNode cache.combinedOrder state.lastNodeId state.lastNodeSequenceId = some node →
          last.nodeId = state.lastNodeId ∧ last.sequenceId = state.lastNodeSequenceId)
    ⟨fun ⟨actions, edge, first, next⟩ => ⟨actions, edge, first, next⟩,
      fun quiet => ⟨quiet.actions, quiet.edge, quiet.first, quiet.next⟩⟩

instance (m : MasterController) (agvId : AgvId) (state : State) :
    Decidable (OrderlyState m agvId state) :=
  inferInstanceAs (Decidable (∀ _, _ → ∀ _, _ → ∀ _, _ → _))

instance (m : MasterController) (event : MasterEvent) : Decidable (Orderly m event) :=
  match event with
  | .continueDispatch => inferInstanceAs (Decidable (∀ _, m.dispatching = some _ → _))
  | .assignOrder .. | .orderPublished .. | .initiateInstantActions ..
  | .instantActionsPublished .. | .state .. => isTrue trivial

end

/-! ## Reporting nothing -/

variable {isCanceling : Bool} {ref : Nat} {state : State} {cache : OrderStateCache}

private theorem nextNodeTraversed_released (names : NamesReleased cache state) {node : Node}
    (reached : nextNodeTraversed cache state = some (some node)) :
    node ∈ cache.combinedOrder.nodes ∧ node.released = true := by
  unfold nextNodeTraversed at reached
  cases last : cache.lastNodeTraversed with
  | none =>
      simp only [last] at reached
      split at reached
      · cases reached
      · next first isFirst =>
        split at reached
        · cases reached
        · next unlisted =>
          obtain rfl := Option.some.inj (Option.some.inj reached)
          refine ⟨List.mem_of_mem_head? isFirst, ?_⟩
          cases names.first last first isFirst with
          | inl released => exact released
          | inr listed => exact absurd listed unlisted
  | some lastNode =>
      simp only [last] at reached
      split at reached
      · next moved =>
        have found := Option.some.inj reached
        refine ⟨List.mem_of_find?_eq_some found, ?_⟩
        cases names.next lastNode last node found with
        | inl released => exact released
        | inr same =>
            rw [Bool.or_eq_true, decide_eq_true_eq, decide_eq_true_eq] at moved
            cases moved with
            | inl other => exact absurd same.1 other
            | inr other => exact absurd same.2 other
      · cases reached

private theorem nextNodeTraversed_noNews (quiet : NoNews isCanceling cache state) :
    ∀ node, nextNodeTraversed cache state ≠ some (some node) := by
  intro next reached
  unfold nextNodeTraversed at reached
  cases last : cache.lastNodeTraversed with
  | none =>
      simp only [last] at reached
      split at reached
      · cases reached
      · next first isFirst =>
        split at reached
        · cases reached
        · next unlisted => exact unlisted (quiet.first last first isFirst)
  | some lastNode =>
      simp only [last] at reached
      split at reached
      · next moved =>
        have same := quiet.next lastNode last next (Option.some.inj reached)
        rw [Bool.or_eq_true, decide_eq_true_eq, decide_eq_true_eq] at moved
        cases moved with
        | inl other => exact other same.1
        | inr other => exact other same.2
      · cases reached

private theorem foldl_updateActionState_noNews {actionStates : List ActionState}
    (same : ∀ actionState ∈ actionStates,
      (cache.mappedActions.lookup actionState.actionId).isSome = true →
      (cache.lastActionStates.lookup actionState.actionId).map (·.actionStatus) =
        some actionState.actionStatus) :
    actionStates.foldl (updateActionState ref state) { cache := cache } = { cache := cache } := by
  induction actionStates with
  | nil => rfl
  | cons actionState actionStates ih =>
      have first : updateActionState ref state { cache := cache } actionState =
          { cache := cache } := by
        have known := same actionState List.mem_cons_self
        unfold updateActionState
        cases mapped : cache.mappedActions.lookup actionState.actionId with
        | none => rfl
        | some entry =>
            dsimp only
            rw [if_pos (known (by rw [mapped]; rfl))]
      rw [List.foldl_cons, first]
      exact ih fun other member => same other (List.mem_cons_of_mem _ member)

private theorem updateTraversal_noNews (edge : isCanceling = true ∨ EdgeAsReported cache state) :
    updateTraversal isCanceling ref state { cache := cache } = { cache := cache } := by
  unfold updateTraversal
  cases last : cache.lastNodeTraversed with
  | none => rfl
  | some lastNode =>
      unfold processEdgeEvents
      dsimp only
      cases edge with
      | inl canceling => rw [if_pos canceling]
      | inr reported =>
          split
          · rfl
          · split
            · rfl
            · next nextEdge found =>
              have same := reported lastNode last nextEdge found
              split
              · next listed =>
                rw [if_pos listed] at same
                cases values : cache.lastEdgeStateChanges with
                | none =>
                    simp only [Option.isSome_none, Bool.false_or, same.2 values,
                      Bool.false_eq_true, if_false]
                | some lastValues =>
                    have current := same.1 lastValues values
                    subst current
                    simp [values, updateEdgeStateChanges]
              · next unlisted =>
                rw [if_neg unlisted] at same
                rw [if_pos same]

/-- Nothing is reported for a State without news. -/
private theorem track_noNews (quiet : NoNews isCanceling cache state) :
    (track isCanceling ref state cache).1 = { cache := cache } := by
  have unchanged : updateTraversal isCanceling ref state
      (state.actionStates.foldl (updateActionState ref state) { cache := cache }) =
        { cache := cache } := by
    rw [foldl_updateActionState_noNews quiet.actions, updateTraversal_noNews quiet.edge]
  unfold track
  rw [unchanged]
  dsimp only
  cases next : nextNodeTraversed cache state with
  | none => rfl
  | some nextNode =>
      cases nextNode with
      | none => rfl
      | some node => exact absurd next (nextNodeTraversed_noNews quiet node)

/-! ## Following the protocol -/

variable {m next : MasterController}

/-- The protocol followed so far, and what it takes to follow it further. -/
structure Protocol (m : MasterController) : Prop where
  known : ∀ notification ∈ m.notifications, ∀ ref, notification.orderCache = some ref →
    ref < m.orderStateCaches.length
  processed : ∀ notification ∈ m.notifications, ∀ ref, notification.processedCache = some ref →
    ¬ m.IsActive ref ∨ ∃ cache, m.orderStateCaches[ref]? = some cache ∧
      cache.isOrderProcessedHandlerInvoked = true
  silent : Library.Always NotAfterProcessed m.notifications
  base : ∀ notification ∈ m.notifications, notification.IsInBase m.orderStateCaches
  settled : ∀ notification ∈ m.notifications, ∀ ref, notification.traversedCache = some ref →
    Settled m ref

/-- New events that follow the protocol. -/
structure Follows (m next : MasterController) (added : List Notification) : Prop where
  known : ∀ notification ∈ added, ∀ ref, notification.orderCache = some ref →
    ref < next.orderStateCaches.length
  processed : ∀ notification ∈ added, ∀ ref, notification.processedCache = some ref →
    ¬ next.IsActive ref ∨ ∃ cache, next.orderStateCaches[ref]? = some cache ∧
      cache.isOrderProcessedHandlerInvoked = true
  unprocessed : ∀ notification ∈ added, ∀ ref, notification.orderCache = some ref →
    ∀ other ∈ m.notifications, other.processedCache ≠ some ref
  last : ∀ past notification future, added = past ++ notification :: future →
    ∀ other ∈ past, other.processedCache = none
  base : ∀ notification ∈ added, notification.IsInBase next.orderStateCaches
  settled : ∀ notification ∈ added, ∀ ref, notification.traversedCache = some ref →
    Settled next ref

theorem Notification.IsInBase.move {notification : Notification} (steady : Steady m next)
    (settled : ∀ ref, notification.traversedCache = some ref → Settled m ref)
    (base : notification.IsInBase m.orderStateCaches) :
    notification.IsInBase next.orderStateCaches := by
  have moved : ∀ {ref : Nat} {cache : OrderStateCache},
      notification.traversedCache = some ref → m.orderStateCaches[ref]? = some cache →
      ∃ cache', next.orderStateCaches[ref]? = some cache' ∧
        cache'.combinedOrder = cache.combinedOrder :=
    fun traversed known => steady.combinedOrder _ _ (settled _ traversed) known
  cases notification with
  | orderProcessed | actionStateChanged | instantActionStateChanged | instantActionError =>
      trivial
  | nodeTraversed ref node nextEdge nextNode =>
      obtain ⟨cache, known, member, released⟩ := base
      obtain ⟨cache', present, same⟩ := moved rfl known
      exact ⟨cache', present, same ▸ member, released⟩
  | edgeTraversing ref edge | edgeTraversed ref edge =>
      obtain ⟨cache, known, member, released⟩ := base
      obtain ⟨cache', present, same⟩ := moved rfl known
      exact ⟨cache', present, same ▸ member, released⟩

theorem Protocol.move (protocol : Protocol m) (books : CacheBooks m) (steady : Steady m next)
    {added : List Notification} (appended : next.notifications = m.notifications ++ added)
    (follows : Follows m next added) : Protocol next where
  known := by
    rw [appended]
    intro notification member ref about
    cases List.mem_append.mp member with
    | inl old => exact (protocol.known notification old ref about).trans_le steady.recedes.length
    | inr new => exact follows.known notification new ref about
  processed := by
    rw [appended]
    intro notification member ref reported
    cases List.mem_append.mp member with
    | inl old =>
        have bound := protocol.known notification old ref (orderCache_of_processedCache reported)
        cases protocol.processed notification old ref reported with
        | inl inactive => exact .inl fun active => inactive (steady.recedes.active ref bound active)
        | inr flagged =>
            obtain ⟨cache, known, processed⟩ := flagged
            exact .inr (steady.processed ref cache known processed)
    | inr new => exact follows.processed notification new ref reported
  silent := by
    rw [appended]
    refine protocol.silent.append_of fun past notification future split ref about other member => ?_
    have new : notification ∈ added := by simp [split]
    cases List.mem_append.mp member with
    | inl old => exact follows.unprocessed notification new ref about other old
    | inr same =>
        rw [follows.last past notification future split other same]
        simp
  base := by
    rw [appended]
    intro notification member
    cases List.mem_append.mp member with
    | inl old =>
        exact (protocol.base notification old).move steady (protocol.settled notification old)
    | inr new => exact follows.base notification new
  settled := by
    rw [appended]
    intro notification member ref traversed
    cases List.mem_append.mp member with
    | inl old =>
        exact (protocol.settled notification old ref traversed).move books
          (protocol.known notification old ref (orderCache_of_traversedCache traversed))
          steady.recedes
    | inr new => exact follows.settled notification new ref traversed

/-- Nothing is reported on orders. -/
private theorem Follows.of_instant {added : List Notification}
    (none : ∀ notification ∈ added, notification.orderCache = none) : Follows m next added where
  known := by
    intro notification member ref about
    rw [none notification member] at about
    cases about
  processed := by
    intro notification member ref reported
    have about := orderCache_of_processedCache reported
    rw [none notification member] at about
    cases about
  unprocessed := by
    intro notification member ref about
    rw [none notification member] at about
    cases about
  last := by
    intro past notification future split other member
    have absent := none other (by simp [split, member])
    cases reported : other.processedCache with
    | none => rfl
    | some ref =>
        rw [orderCache_of_processedCache reported] at absent
        cases absent
  base := by
    intro notification member
    have absent := none notification member
    cases notification with
    | nodeTraversed | edgeTraversing | edgeTraversed => cases absent
    | orderProcessed | actionStateChanged | instantActionStateChanged | instantActionError =>
        trivial
  settled := by
    intro notification member ref traversed
    have about := orderCache_of_traversedCache traversed
    rw [none notification member] at about
    cases about

theorem Follows.nil (m next : MasterController) : Follows m next [] := .of_instant (by simp)

/-- Nothing is reported on orders, and nothing happens to them. -/
private theorem Protocol.of_instant (protocol : Protocol m) (books : CacheBooks m)
    (caches : next.orderStateCaches = m.orderStateCaches)
    (orders : next.currentOrders = m.currentOrders) {added : List Notification}
    (appended : next.notifications = m.notifications ++ added)
    (none : ∀ notification ∈ added, notification.orderCache = none) : Protocol next :=
  protocol.move books (.of_caches caches orders) appended (.of_instant none)

/-- An order that is active and not processed has not been reported as processed. -/
theorem Protocol.unprocessed (protocol : Protocol m) {ref : Nat} {cache : OrderStateCache}
    (known : m.orderStateCaches[ref]? = some cache) (active : m.IsActive ref)
    (unprocessed : cache.isOrderProcessedHandlerInvoked = false) :
    ∀ other ∈ m.notifications, other.processedCache ≠ some ref := by
  intro other member reported
  cases protocol.processed other member ref reported with
  | inl inactive => exact inactive active
  | inr flagged =>
      obtain ⟨cache', present, processed⟩ := flagged
      obtain rfl := Option.some.inj (known.symm.trans present)
      rw [unprocessed] at processed
      cases processed

/-- Only the end of an order is reported, for an order not processed before. -/
private theorem Follows.of_processed {ref : Nat} {withError : Option Error}
    {byCancelation active : Bool} (known : ref < next.orderStateCaches.length)
    (processed : ¬ next.IsActive ref ∨ ∃ cache, next.orderStateCaches[ref]? = some cache ∧
      cache.isOrderProcessedHandlerInvoked = true)
    (unprocessed : ∀ other ∈ m.notifications, other.processedCache ≠ some ref) :
    Follows m next [.orderProcessed ref withError byCancelation active] where
  known := by
    intro notification member other about
    rw [List.mem_singleton.mp member] at about
    obtain rfl := Option.some.inj about
    exact known
  processed := by
    intro notification member other about
    rw [List.mem_singleton.mp member] at about
    obtain rfl := Option.some.inj about
    exact processed
  unprocessed := by
    intro notification member other about
    rw [List.mem_singleton.mp member] at about
    obtain rfl := Option.some.inj about
    exact unprocessed
  last := by
    intro past notification future split other member
    cases past with
    | nil => cases member
    | cons first past => simp at split
  base := by
    intro notification member
    rw [List.mem_singleton.mp member]
    trivial
  settled := by
    intro notification member other traversed
    rw [List.mem_singleton.mp member] at traversed
    cases traversed

/-- Progress on a stitched order that has not been processed. -/
private theorem Follows.of_progress {ref : Nat} {cache : OrderStateCache}
    {added : List Notification} {reached : Node → Prop}
    (known : next.orderStateCaches[ref]? = some cache) (settled : Settled next ref)
    (progress : ∀ notification ∈ added, notification.IsProgress ref cache.combinedOrder reached)
    (inBase : ∀ node, reached node → node ∈ cache.combinedOrder.nodes ∧ node.released = true)
    (unprocessed : ∀ other ∈ m.notifications, other.processedCache ≠ some ref) :
    Follows m next added where
  known := by
    intro notification member other about
    rw [(progress notification member).orderCache, Option.some.injEq] at about
    subst about
    exact (List.getElem?_eq_some_iff.mp known).1
  processed := by
    intro notification member other reported
    have fits := progress notification member
    cases notification with
    | orderProcessed => exact fits.elim
    | nodeTraversed | edgeTraversing | edgeTraversed | actionStateChanged
    | instantActionStateChanged | instantActionError => cases reported
  unprocessed := by
    intro notification member other about
    rw [(progress notification member).orderCache, Option.some.injEq] at about
    subst about
    exact unprocessed
  last := by
    intro past notification future split other member
    have fits := progress other (by simp [split, member])
    cases other with
    | orderProcessed => exact fits.elim
    | nodeTraversed | edgeTraversing | edgeTraversed | actionStateChanged
    | instantActionStateChanged | instantActionError => rfl
  base := by
    intro notification member
    have fits := progress notification member
    cases notification with
    | orderProcessed | actionStateChanged | instantActionStateChanged | instantActionError =>
        trivial
    | nodeTraversed other node =>
        obtain ⟨rfl, reaches⟩ := fits
        exact ⟨cache, known, inBase node reaches⟩
    | edgeTraversing other edge | edgeTraversed other edge =>
        obtain ⟨rfl, listed, released⟩ := fits
        exact ⟨cache, known, listed, released⟩
  settled := by
    intro notification member other traversed
    have about := orderCache_of_traversedCache traversed
    rw [(progress notification member).orderCache, Option.some.injEq] at about
    subst about
    exact settled

/-! ## The dispatch of a State -/

theorem removeOrderStateCache_notifications (m : MasterController) (ref : Nat)
    (deleteLastCache : Bool) :
    (m.removeOrderStateCache ref deleteLastCache).notifications = m.notifications := by
  obtain ⟨caches, orders, removed⟩ := m.removeOrderStateCache_eq ref deleteLastCache
  rw [removed]

theorem stitchOntoActiveOrder_notifications {stitched : MasterController × OrderStateCache}
    (succeeded : m.stitchOntoActiveOrder ref cache = some stitched) :
    stitched.1.notifications = m.notifications := by
  unfold stitchOntoActiveOrder at succeeded
  split at succeeded
  · rw [← Option.some.inj succeeded]
  · split at succeeded
    · rw [← Option.some.inj succeeded]
    · split at succeeded
      · rw [← Option.some.inj succeeded]
        exact removeOrderStateCache_notifications _ _ true
      · cases succeeded

private theorem reportOrderProcessed_protocol (protocol : Protocol m) (books : CacheBooks m)
    (known : m.orderStateCaches[ref]? = some cache) (active : m.IsActive ref) (state : State) :
    Protocol (m.reportOrderProcessed ref cache state) := by
  have steady : Steady m (m.reportOrderProcessed ref cache state) :=
    .of_same (.of_moves (reportOrderProcessed_local known state)
      (reportOrderProcessed_move m (fun _ _ _ => False) known state))
      (reportOrderProcessed_sameOrders known state)
  have bound := (List.getElem?_eq_some_iff.mp known).1.trans_le steady.recedes.length
  have present := updateCache_getElem m { cache with isOrderProcessedHandlerInvoked := true } known
  unfold reportOrderProcessed at steady bound ⊢
  dsimp only at steady bound ⊢
  split at steady
  · next first =>
    rw [if_pos first] at bound ⊢
    have unprocessed : cache.isOrderProcessedHandlerInvoked = false := by
      simp only [Bool.and_eq_true, Bool.not_eq_true'] at first
      exact first.2
    have unreported := protocol.unprocessed known active unprocessed
    split at steady
    · next stays =>
      rw [if_pos stays] at bound ⊢
      refine protocol.move books steady rfl (.of_processed bound (.inr ?_) unreported)
      exact ⟨_, present, rfl⟩
    · next leaves =>
      rw [if_neg leaves] at bound ⊢
      have move := updateCache_move m (fun _ _ _ => False) known
        (⟨rfl, rfl, fun _ => id⟩ :
          SameCache cache { cache with isOrderProcessedHandlerInvoked := true })
      have inactive := removeOrderStateCache_inactive (move.books books) present true
      have kept := removeOrderStateCache_notifications
        (m.updateCache ref { cache with isOrderProcessedHandlerInvoked := true }) ref true
      have appended := congrArg
        (· ++ [Notification.orderProcessed ref none
          (m.isOrderCanceling cache.agvId state [.finished])
          (decide (isOrderProcessed cache state = none))]) kept
      exact protocol.move books steady appended (.of_processed bound (.inl inactive) unreported)
  · next none =>
    rw [if_neg none]
    exact protocol

private theorem tracked_protocol (protocol : Protocol m) (books : CacheBooks m)
    (known : m.orderStateCaches[ref]? = some cache) (active : m.IsActive ref)
    (settled : Settled m ref) (names : NamesReleased cache state)
    (quiet : cache.isOrderProcessedHandlerInvoked = true → NoNews isCanceling cache state) :
    Protocol (m.tracked ref (track isCanceling ref state cache).1) := by
  have same := track_tracked isCanceling ref state cache
  have about := track_isAbout isCanceling ref state cache
  have move := updateCache_move m (fun _ _ _ => False) known same.same
  have steady : Steady m (m.tracked ref (track isCanceling ref state cache).1) :=
    .of_same (.of_moves (tracked_local known same about) (move.then_same rfl rfl))
      (SameOrders.updateCache known same.combinedOrder fun processed =>
        same.isOrderProcessedHandlerInvoked.trans processed)
  refine protocol.move books steady rfl ?_
  have progress := about.progress
  rw [← same.combinedOrder] at progress
  cases processed : cache.isOrderProcessedHandlerInvoked with
  | true =>
      rw [track_noNews (quiet processed)]
      exact .nil m _
  | false =>
      refine .of_progress (updateCache_getElem m _ known) ?_ progress ?_
        (protocol.unprocessed known active processed)
      · exact settled.move books (List.getElem?_eq_some_iff.mp known).1 steady.recedes
      · rw [same.combinedOrder]
        exact fun node reached => nextNodeTraversed_released names reached

/-- The dispatch of a State follows the protocol. -/
private theorem dispatchOrderState_protocol (protocol : Protocol m) (books : CacheBooks m)
    (owned : Owned m) {agvId : AgvId}
    (found : m.getOrderStateCache agvId state.orderId state.orderUpdateId = some ref)
    (orderly : OrderlyState m agvId state) : Protocol (m.dispatchOrderState state ref) := by
  obtain ⟨cache, known, rfl, orderId, orderUpdateId⟩ := books.keyed _ _ _ _ found
  cases succeeded : m.stitchOntoActiveOrder ref cache with
  | none =>
      unfold dispatchOrderState
      simp only [known, succeeded]
      exact protocol.of_instant books rfl rfl (List.append_nil _).symm (by simp)
  | some stitched =>
      obtain ⟨names, quiet⟩ := orderly ref found cache known stitched succeeded
      have stitching := stitchOntoActiveOrder_steady owned known succeeded
      have stitchedBooks := (stitchOntoActiveOrder_move m (fun _ _ _ => False) known
        succeeded).books books
      have stitchedProtocol : Protocol stitched.1 := by
        refine protocol.move books stitching ?_ (.nil m _)
        rw [stitchOntoActiveOrder_notifications succeeded, List.append_nil]
      have present := stitchOntoActiveOrder_known m books known succeeded
      have settled := stitchOntoActiveOrder_settles books owned known succeeded
      have active : stitched.1.IsActive ref := by
        rw [← orderId, ← orderUpdateId] at found
        exact ⟨_, _, _, (stitchOntoActiveOrder_found books known found succeeded).1⟩
      rw [dispatchOrderState_track m known succeeded]
      have tracked := tracked_protocol stitchedProtocol stitchedBooks present active settled names
        quiet
      have same := track_tracked (stitched.1.isOrderCanceling stitched.2.agvId state
        [.running, .finished]) ref state stitched.2
      have updatedBooks := (updateCache_move stitched.1 (fun _ _ _ => False) present
        same.same).books stitchedBooks
      have trackedBooks : CacheBooks (stitched.1.tracked ref (track
          (stitched.1.isOrderCanceling stitched.2.agvId state [.running, .finished]) ref state
            stitched.2).1) :=
        ⟨updatedBooks.keyed, updatedBooks.older, updatedBooks.assigned⟩
      dsimp only
      split
      · exact reportOrderProcessed_protocol tracked trackedBooks
          (updateCache_getElem stitched.1 _ present) active state
      · exact tracked.of_instant trackedBooks rfl rfl (List.append_nil _).symm (by simp)

private theorem dispatchError_protocol (protocol : Protocol m) (books : CacheBooks m)
    (owned : Owned m) (agvId : AgvId) (error : Error)
    (orderly : ∀ ref, m.rejectedCache agvId error = some ref →
      ∀ cache, m.orderStateCaches[ref]? = some cache →
        cache.isOrderProcessedHandlerInvoked = false) :
    Protocol (m.dispatchError agvId error) := by
  have steady : Steady m (m.dispatchError agvId error) := by
    refine .of_same (.of_moves (dispatchError_local owned agvId error)
      (dispatchError_move m (fun _ _ _ => False) agvId error)) fun ref => ?_
    unfold dispatchError
    split
    · exact .refl m ref
    · exact .removeOrderStateCache m _ false ref
  have bound := steady.recedes.length
  unfold dispatchError at steady bound ⊢
  cases rejected : m.rejectedCache agvId error with
  | none => exact protocol
  | some ref =>
      rw [rejected] at steady bound
      obtain ⟨cache, known, -⟩ := owned.rejectedCache rejected
      have active : m.IsActive ref := by
        obtain ⟨⟨orderId, orderUpdateId⟩, -, found⟩ := Option.bind_eq_some_iff.mp rejected
        dsimp only at found
        split at found
        · exact ⟨_, _, _, found⟩
        · cases found
      have appended := congrArg (· ++ [Notification.orderProcessed ref (some error) false false])
        (removeOrderStateCache_notifications m ref false)
      have unreported := protocol.unprocessed known active (orderly ref rejected cache known)
      have inactive := removeOrderStateCache_inactive books known false
      have known := (List.getElem?_eq_some_iff.mp known).1.trans_le bound
      exact protocol.move books steady appended (.of_processed known (.inl inactive) unreported)

/-- Instant actions report nothing on orders. -/
theorem dispatchInstantActions_notifications (m : MasterController) (agvId : AgvId)
    (state : State) :
    ∃ added, (m.dispatchInstantActions agvId state).notifications = m.notifications ++ added ∧
      ∀ notification ∈ added, notification.orderCache = none := by
  have removed : ∀ (m : MasterController) (cache : InstantActionStateCache),
      (m.removeInstantActionStateCache cache).notifications = m.notifications := by
    intro m cache
    unfold removeInstantActionStateCache
    split
    · rfl
    · dsimp only
      split <;> rfl
  have single : ∀ (ref : Nat) (m : MasterController) (entry : String × InstantActionStateCache),
      ∃ added, (dispatchInstantAction ref state m entry).notifications = m.notifications ++ added ∧
        ∀ notification ∈ added, notification.orderCache = none := by
    intro ref m entry
    unfold dispatchInstantAction
    split
    · unfold dispatchInstantActionState
      dsimp only
      split
      · exact ⟨[], by simp⟩
      · split
        · exact ⟨_, congrArg (· ++ _) (removed _ _), by simp [Notification.orderCache]⟩
        · exact ⟨_, rfl, by simp [Notification.orderCache]⟩
    · split
      · exact ⟨_, congrArg (· ++ _) (removed _ _), by simp [Notification.orderCache]⟩
      · exact ⟨[], by simp⟩
  have folded : ∀ (ref : Nat) (entries : List (String × InstantActionStateCache))
      (m : MasterController),
      ∃ added, (entries.foldl (dispatchInstantAction ref state) m).notifications =
          m.notifications ++ added ∧
        ∀ notification ∈ added, notification.orderCache = none := by
    intro ref entries
    induction entries with
    | nil => exact fun m => ⟨[], by simp⟩
    | cons entry entries ih =>
        intro m
        obtain ⟨first, appended, none⟩ := single ref m entry
        obtain ⟨rest, extended, also⟩ := ih (dispatchInstantAction ref state m entry)
        refine ⟨first ++ rest, by rw [List.foldl_cons, extended, appended, List.append_assoc], ?_⟩
        intro notification member
        exact (List.mem_append.mp member).elim (none notification) (also notification)
  unfold dispatchInstantActions
  dsimp only
  rw [updateInstantActionsValidationError_set m]
  split
  · exact ⟨[], by simp⟩
  · exact folded _ _ _

private theorem continueDispatch_protocol (protocol : Protocol m) (books : CacheBooks m)
    (owned : Owned m) (orderly : Orderly m .continueDispatch) : Protocol m.continueDispatch := by
  have same : ∀ dispatching : Option Dispatching,
      Protocol { m with dispatching := dispatching } ∧
        CacheBooks { m with dispatching := dispatching } ∧
        Owned { m with dispatching := dispatching } := fun dispatching =>
    ⟨protocol.of_instant books rfl rfl (List.append_nil _).symm (by simp),
      ⟨books.keyed, books.older, books.assigned⟩,
      ⟨owned.current, owned.lastCache, owned.actionMaps, owned.bounded, owned.actions⟩⟩
  unfold continueDispatch
  cases dispatching : m.dispatching with
  | none => exact protocol
  | some current =>
      have required := orderly current dispatching
      dsimp only
      cases remaining : current.errors with
      | cons error errors =>
          have required := required.1 error (by rw [remaining]; rfl)
          obtain ⟨looking, stillBooks, stillOwned⟩ := same (some { current with errors := errors })
          exact dispatchError_protocol looking stillBooks stillOwned current.agvId error required
      | nil =>
          have required := required.2 remaining
          obtain ⟨finishing, stillBooks, stillOwned⟩ := same none
          dsimp only
          generalize ({ m with dispatching := none } : MasterController) = m
            at required finishing stillBooks stillOwned
          have order : Protocol (m.dispatchCurrentOrder current.agvId current.state) := by
            unfold dispatchCurrentOrder
            split
            · exact finishing
            · next found =>
              exact dispatchOrderState_protocol finishing stillBooks stillOwned found required
          have orderBooks : CacheBooks (m.dispatchCurrentOrder current.agvId current.state) := by
            unfold dispatchCurrentOrder
            split
            · exact stillBooks
            · exact (dispatchOrderState_move m (fun _ _ _ => False) stillBooks _ _).books stillBooks
          unfold dispatchOrderAndActions
          dsimp only
          split
          · exact order
          · obtain ⟨added, appended, none⟩ := dispatchInstantActions_notifications
              (m.dispatchCurrentOrder current.agvId current.state) current.agvId current.state
            have kept := dispatchInstantActions_orders
              (m.dispatchCurrentOrder current.agvId current.state) current.agvId current.state
            exact order.of_instant orderBooks kept.1 kept.2 appended none

/-- Steps other than those of the dispatch of a State report nothing. -/
private theorem perform_protocol (protocol : Protocol m) (books : CacheBooks m) (owned : Owned m)
    (event : MasterEvent) (orderly : Orderly m event) : Protocol (m.perform event) := by
  have steady (same : ∀ ref (cache : OrderStateCache), m.orderStateCaches[ref]? = some cache →
      (m.perform event).orderStateCaches[ref]? = some cache) : Steady m (m.perform event) :=
    .of_same (perform_recedes books owned event) fun ref cache known =>
      ⟨cache, same ref cache known, rfl, id⟩
  cases event with
  | assignOrder agvId order eventHandler =>
      refine protocol.move books (steady ?_) ?_ (.nil m _)
      · intro ref cache known
        simp only [perform, assignOrder]
        split
        · exact known
        · simp only [addOrderStateCache]
          rw [List.getElem?_append_left (List.getElem?_eq_some_iff.mp known).1]
          exact known
      · simp only [perform, assignOrder]
        split <;> exact (List.append_nil _).symm
  | orderPublished published succeeded =>
      refine protocol.move books (steady ?_) ?_ (.nil m _)
      · intro ref cache known
        simp only [perform, orderPublished]
        split
        · exact known
        · simp only [removeOrderStateCache, Bool.false_eq_true, if_false]
          split
          · exact known
          · rw [deleteOrderStateCache_orderStateCaches]
            exact known
      · simp only [perform, orderPublished]
        split
        · exact (List.append_nil _).symm
        · exact (removeOrderStateCache_notifications _ _ _).trans (List.append_nil _).symm
  | initiateInstantActions agvId actions eventHandler =>
      simp only [perform, initiateInstantActions]
      split <;> exact protocol.of_instant books rfl rfl (List.append_nil _).symm (by simp)
  | instantActionsPublished pending succeeded =>
      simp only [perform, instantActionsPublished]
      split
      · exact protocol.of_instant books rfl rfl (List.append_nil _).symm (by simp)
      · split <;> exact protocol.of_instant books rfl rfl (List.append_nil _).symm (by simp)
  | state agvId state =>
      exact protocol.of_instant books rfl rfl (List.append_nil _).symm (by simp)
  | continueDispatch => exact continueDispatch_protocol protocol books owned orderly

theorem Protocol.initial : Protocol {} where
  known := by simp
  processed := by simp
  silent := .nil
  base := by simp
  settled := by simp

/-! ## Runs -/

/-- In runs with orderly States the end of an order is reported once, nothing is
reported on the order afterwards, and only released nodes and edges of the
combined order are reported as traversed. -/
theorem callbacks_follow_protocol {events : List MasterEvent}
    (run : Library.Run step Orderly {} events m) :
    Library.Always NotAfterProcessed m.notifications ∧
      ∀ notification ∈ m.notifications, notification.IsInBase m.orderStateCaches := by
  have protocol := run.invariant Protocol Protocol.initial
    fun earlier protocol orderly stepped => by
      obtain ⟨-, rfl⟩ := step_eq_some.mp stepped
      have plain : MasterRun _ _ := earlier.weaken fun _ _ _ => trivial
      exact perform_protocol protocol (CacheBooks.of_run plain) (Owned.of_run plain) _ orderly
  exact ⟨protocol.silent, protocol.base⟩

/-- The order is processed while its horizon is left, and States repeat this. -/
theorem callbacks_follow_protocol_of_horizon :
    ∃ m, Library.Run step Orderly {}
        [.assignOrder vehicle (edgeOrder false) 0, .orderPublished 0 true,
          .state vehicle horizonState, .continueDispatch, .state vehicle horizonState,
          .continueDispatch] m ∧
      m.notifications.any (·.processedCache = some 0) = true ∧
      Library.Always NotAfterProcessed m.notifications ∧
      ∀ notification ∈ m.notifications, notification.IsInBase m.orderStateCaches := by
  have passed : (Library.execute step Orderly {}
      [.assignOrder vehicle (edgeOrder false) 0, .orderPublished 0 true,
        .state vehicle horizonState, .continueDispatch, .state vehicle horizonState,
        .continueDispatch]).any
      (fun m => m.notifications.any (·.processedCache = some 0)) = true := by decide
  obtain ⟨m, run, passed⟩ := Library.exists_run_of_execute passed
  exact ⟨m, run, passed, callbacks_follow_protocol run⟩

/-- The State names the end of the horizon as traversed. -/
def horizonNodeState : State := edgeOrderState "end" 2 [] [] []

/-- After the order has been processed, a node of its horizon is reported. -/
theorem not_callbacks_follow_protocol :
    ∃ m, MasterRun
        [.assignOrder vehicle (edgeOrder false) 0, .orderPublished 0 true,
          .state vehicle horizonState, .continueDispatch, .state vehicle horizonNodeState,
          .continueDispatch] m ∧
      ¬ Library.Always NotAfterProcessed m.notifications ∧
      ¬ ∀ notification ∈ m.notifications, notification.IsInBase m.orderStateCaches := by
  obtain ⟨m, run, passed⟩ := MasterRun.exists_of_execute
    [.assignOrder vehicle (edgeOrder false) 0, .orderPublished 0 true,
      .state vehicle horizonState, .continueDispatch, .state vehicle horizonNodeState,
      .continueDispatch]
    (fun m => decide (m.notifications.drop 1 =
      [.orderProcessed 0 none false true,
        .nodeTraversed 0
          { ref := (0, 1), nodeId := "end", sequenceId := 2, released := false, actions := [] }
          none none]))
    (by decide)
  rw [decide_eq_true_eq] at passed
  have split := List.take_append_drop 1 m.notifications
  rw [passed] at split
  generalize m.notifications.take 1 = front at split
  refine ⟨m, run, ?_, ?_⟩
  · intro silent
    rw [← split, List.append_cons] at silent
    exact silent (front ++ [.orderProcessed 0 none false true]) _ [] rfl 0 rfl
      (.orderProcessed 0 none false true) (by simp) rfl
  · intro base
    rw [← split] at base
    obtain ⟨cache, -, -, released⟩ := base _ (List.mem_append_right _
      (List.mem_cons_of_mem _ List.mem_cons_self))
    cases released

end MasterController

end Vda5050
