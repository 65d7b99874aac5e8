import Vda5050.MasterController.Caches

/-!
# Tracking an order

What a State of an order brings for the handler of the order, apart from the
maps of caches: a function of the State and of the cache, whose events are all
reported for this cache.
-/

set_option autoImplicit false

namespace Vda5050

namespace MasterController

/-- The cache of the order a notification is reported for. -/
def Notification.orderCache : Notification → Option Nat
  | .orderProcessed cache .. | .nodeTraversed cache .. | .edgeTraversing cache ..
  | .edgeTraversed cache .. | .actionStateChanged cache .. => some cache
  | .instantActionStateChanged .. | .instantActionError .. => none

/-- Report the events of a State on an order, and whether this succeeds. -/
def track (isCanceling : Bool) (ref : Nat) (state : State) (cache : OrderStateCache) :
    Dispatch × Bool :=
  let d := updateTraversal isCanceling ref state
    (state.actionStates.foldl (updateActionState ref state) { cache := cache })
  match nextNodeTraversed d.cache state with
  | none => (d, false)
  | some nextNode => (nextNode.elim d (nodeTraversed isCanceling ref state · d), true)

/-- The master controller once the events of a State have been reported. -/
def tracked (m : MasterController) (ref : Nat) (d : Dispatch) : MasterController :=
  { m.updateCache ref d.cache with notifications := m.notifications ++ d.notifications }

/-- `_dispatchOrderState` stitches, tracks, and reports the end of the order. -/
theorem dispatchOrderState_track (m : MasterController) {state : State} {ref : Nat}
    {cache : OrderStateCache} {stitched : MasterController × OrderStateCache}
    (known : m.orderStateCaches[ref]? = some cache)
    (succeeded : m.stitchOntoActiveOrder ref cache = some stitched) :
    m.dispatchOrderState state ref =
      let result := track
        (stitched.1.isOrderCanceling stitched.2.agvId state [.running, .finished]) ref state
        stitched.2
      if result.2 then
        (stitched.1.tracked ref result.1).reportOrderProcessed ref result.1.cache state
      else (stitched.1.tracked ref result.1).throwTypeError := by
  unfold dispatchOrderState track
  simp only [known, succeeded]
  cases nextNodeTraversed _ state with
  | none => rfl
  | some nextNode => rfl

/-! ## Events of a State -/

/-- The events of a State on an order: actions, edges of the base, and nodes
that have been reached. -/
def Notification.IsProgress (ref : Nat) (order : Order) (reached : Node → Prop) :
    Notification → Prop
  | .nodeTraversed cache node _ _ => cache = ref ∧ reached node
  | .edgeTraversing cache edge .. | .edgeTraversed cache edge .. =>
      cache = ref ∧ edge ∈ order.edges ∧ edge.released = true
  | .actionStateChanged cache .. => cache = ref
  | .orderProcessed .. | .instantActionStateChanged .. | .instantActionError .. => False

theorem Notification.IsProgress.orderCache {ref : Nat} {order : Order} {reached : Node → Prop}
    {notification : Notification} (progress : notification.IsProgress ref order reached) :
    notification.orderCache = some ref := by
  cases notification with
  | nodeTraversed | edgeTraversing | edgeTraversed => exact congrArg some progress.1
  | actionStateChanged => exact congrArg some progress
  | orderProcessed | instantActionStateChanged | instantActionError => exact progress.elim

private theorem getNextReleasedEdge_mem {order : Order} {node : Node} {edge : Edge}
    (found : getNextReleasedEdge order node = some edge) :
    edge ∈ order.edges ∧ edge.released = true := by
  have fits := List.find?_some found
  simp only [Bool.and_eq_true] at fits
  exact ⟨List.mem_of_find?_eq_some found, fits.1.1⟩

/-- Only events on one order are reported. -/
structure Dispatch.IsAbout (d : Dispatch) (ref : Nat) (order : Order) (reached : Node → Prop) :
    Prop where
  combinedOrder : d.cache.combinedOrder = order
  progress : ∀ notification ∈ d.notifications, notification.IsProgress ref order reached

namespace Dispatch

variable {d : Dispatch} {ref : Nat} {order : Order} {reached : Node → Prop}

private theorem isAbout_start (cache : OrderStateCache) (ref : Nat) (reached : Node → Prop) :
    IsAbout { cache := cache } ref cache.combinedOrder reached where
  combinedOrder := rfl
  progress := by
    intro notification member
    cases member

theorem IsAbout.notify (about : d.IsAbout ref order reached) {cache : OrderStateCache}
    (same : cache.combinedOrder = d.cache.combinedOrder) {notification : Notification}
    (progress : notification.IsProgress ref order reached) :
    IsAbout (notify { d with cache := cache } notification) ref order reached where
  combinedOrder := same.trans about.combinedOrder
  progress := by
    intro other member
    cases List.mem_append.mp member with
    | inl earlier => exact about.progress other earlier
    | inr new =>
        rw [List.mem_singleton.mp new]
        exact progress

theorem IsAbout.updateActionState (about : d.IsAbout ref order reached) (state : State)
    (actionState : ActionState) :
    (MasterController.updateActionState ref state d actionState).IsAbout ref order reached := by
  unfold MasterController.updateActionState
  split
  · exact about
  · dsimp only
    split
    · exact about
    · apply about.notify
      · rfl
      · exact rfl

private theorem IsAbout.foldl_updateActionState (about : d.IsAbout ref order reached)
    (state : State) (actionStates : List ActionState) :
    (actionStates.foldl (MasterController.updateActionState ref state) d).IsAbout ref order
      reached := by
  induction actionStates generalizing d with
  | nil => exact about
  | cons actionState actionStates ih => exact ih (about.updateActionState state actionState)

theorem IsAbout.updateEdgeStateChanges (about : d.IsAbout ref order reached) {edge : Edge}
    (member : edge ∈ order.edges) (released : edge.released = true)
    (startNode endNode : Option Node) (state : State) :
    (MasterController.updateEdgeStateChanges ref edge startNode endNode state d).IsAbout ref order
      reached := by
  unfold MasterController.updateEdgeStateChanges
  dsimp only
  split
  · apply about.notify
    · rfl
    · exact ⟨rfl, member, released⟩
  · split
    · exact about
    · apply about.notify
      · rfl
      · exact ⟨rfl, member, released⟩

theorem IsAbout.processEdgeEvents (about : d.IsAbout ref order reached) (isCanceling : Bool)
    (state : State) (lastNode : Node) :
    (MasterController.processEdgeEvents isCanceling ref state lastNode d).IsAbout ref order
      reached := by
  unfold MasterController.processEdgeEvents
  split
  · exact about
  · rw [about.combinedOrder]
    split
    · exact about
    · next nextEdge found =>
      obtain ⟨member, released⟩ := getNextReleasedEdge_mem found
      dsimp only
      split
      · split
        · exact about.updateEdgeStateChanges member released _ _ _
        · exact about
      · split
        · exact about
        · apply (about.updateEdgeStateChanges member released _ _ _).notify
          · rfl
          · exact ⟨rfl, member, released⟩

theorem IsAbout.updateTraversal (about : d.IsAbout ref order reached) (isCanceling : Bool)
    (state : State) :
    (MasterController.updateTraversal isCanceling ref state d).IsAbout ref order reached := by
  unfold MasterController.updateTraversal
  split
  · exact about
  · exact about.processEdgeEvents _ _ _

theorem IsAbout.nodeTraversed (about : d.IsAbout ref order reached) (isCanceling : Bool)
    (state : State) {nextNode : Node} (reaches : reached nextNode) :
    (MasterController.nodeTraversed isCanceling ref state nextNode d).IsAbout ref order
      reached := by
  unfold MasterController.nodeTraversed
  apply IsAbout.processEdgeEvents
  apply about.notify
  · rfl
  · exact ⟨rfl, reaches⟩

end Dispatch

/-! ## The last traversed node

Actions and edges do not move it. -/

private theorem updateActionState_lastNodeTraversed (ref : Nat) (state : State) (d : Dispatch)
    (actionState : ActionState) :
    (updateActionState ref state d actionState).cache.lastNodeTraversed =
      d.cache.lastNodeTraversed := by
  unfold updateActionState
  split
  · rfl
  · dsimp only
    split <;> rfl

private theorem foldl_updateActionState_lastNodeTraversed (ref : Nat) (state : State)
    (actionStates : List ActionState) (d : Dispatch) :
    (actionStates.foldl (updateActionState ref state) d).cache.lastNodeTraversed =
      d.cache.lastNodeTraversed := by
  induction actionStates generalizing d with
  | nil => rfl
  | cons actionState actionStates ih =>
      exact (ih _).trans (updateActionState_lastNodeTraversed ref state d actionState)

private theorem updateEdgeStateChanges_lastNodeTraversed (ref : Nat) (edge : Edge)
    (startNode endNode : Option Node) (state : State) (d : Dispatch) :
    (updateEdgeStateChanges ref edge startNode endNode state d).cache.lastNodeTraversed =
      d.cache.lastNodeTraversed := by
  unfold updateEdgeStateChanges
  dsimp only
  split
  · rfl
  · split <;> rfl

private theorem processEdgeEvents_lastNodeTraversed (isCanceling : Bool) (ref : Nat) (state : State)
    (lastNode : Node) (d : Dispatch) :
    (processEdgeEvents isCanceling ref state lastNode d).cache.lastNodeTraversed =
      d.cache.lastNodeTraversed := by
  have updated := updateEdgeStateChanges_lastNodeTraversed ref
  unfold processEdgeEvents
  split
  · rfl
  · split
    · rfl
    · dsimp only
      split
      · split
        · exact updated _ _ _ _ _
        · rfl
      · split
        · rfl
        · exact updated _ _ _ _ _

private theorem updateTraversal_lastNodeTraversed (isCanceling : Bool) (ref : Nat) (state : State)
    (d : Dispatch) :
    (updateTraversal isCanceling ref state d).cache.lastNodeTraversed =
      d.cache.lastNodeTraversed := by
  unfold updateTraversal
  split
  · rfl
  · exact processEdgeEvents_lastNodeTraversed ..

variable (isCanceling : Bool) (ref : Nat) (state : State) (cache : OrderStateCache)

/-- The node traversed next depends on the cache before the events. -/
theorem nextNodeTraversed_track :
    nextNodeTraversed (updateTraversal isCanceling ref state
        (state.actionStates.foldl (updateActionState ref state) { cache := cache })).cache state =
      nextNodeTraversed cache state := by
  have same := (foldl_updateActionState_tracked ref state state.actionStates
    { cache := cache }).trans (updateTraversal_tracked isCanceling ref state _)
  have last := (updateTraversal_lastNodeTraversed isCanceling ref state _).trans
    (foldl_updateActionState_lastNodeTraversed ref state state.actionStates { cache := cache })
  unfold nextNodeTraversed
  rw [same.combinedOrder, last]

theorem track_isAbout :
    (track isCanceling ref state cache).1.IsAbout ref cache.combinedOrder
      (fun node => nextNodeTraversed cache state = some (some node)) := by
  have actions := (Dispatch.isAbout_start cache ref
    (fun node => nextNodeTraversed cache state = some (some node))).foldl_updateActionState state
      state.actionStates
  have traversal := actions.updateTraversal isCanceling state
  have next := nextNodeTraversed_track isCanceling ref state cache
  unfold track
  dsimp only
  split
  · exact traversal
  · next nextNode reached =>
    rw [next] at reached
    cases nextNode with
    | none => exact traversal
    | some nextNode => exact traversal.nodeTraversed isCanceling state reached

theorem track_tracked : Tracked cache (track isCanceling ref state cache).1.cache := by
  have traversal := (foldl_updateActionState_tracked ref state state.actionStates
    { cache := cache }).trans (updateTraversal_tracked isCanceling ref state _)
  unfold track
  dsimp only
  split
  · exact traversal
  · next nextNode _ =>
    cases nextNode with
    | none => exact traversal
    | some nextNode => exact traversal.trans (nodeTraversed_tracked ..)

end MasterController

end Vda5050
