import Vda5050.AgvController.CancelationStates
import Vda5050.MasterController.CallbackProtocol
import Vda5050.MasterController.InstantActions

/-!
# Reports on the end of an order

Which steps report the end of an order: errors that reject it, and States about
it that list nothing of its base any more. The first State after which nothing
is left of the order tells whether the order has been canceled.
-/

set_option autoImplicit false

namespace Vda5050

namespace MasterController

/-- The reports on the end of an order, in their order. -/
def processedReports (m : MasterController) (ref : Nat) : List Notification :=
  m.notifications.filter (·.processedCache = some ref)

/-- The caches belong to the same order, whose handler has been called in both
of them or in none. -/
structure SameReport (cache next : OrderStateCache) : Prop where
  agvId : next.agvId = cache.agvId
  order : next.order = cache.order
  invoked : next.isOrderProcessedHandlerInvoked = cache.isOrderProcessedHandlerInvoked

theorem SameReport.refl (cache : OrderStateCache) : SameReport cache cache := ⟨rfl, rfl, rfl⟩

/-- Nothing is reported on the end of an order. -/
structure Unreported (ref : Nat) (m next : MasterController) : Prop where
  cache : ∀ cache, m.orderStateCaches[ref]? = some cache →
    ∃ cache', next.orderStateCaches[ref]? = some cache' ∧ SameReport cache cache'
  notifications : ∃ added, next.notifications = m.notifications ++ added ∧
    ∀ notification ∈ added, notification.processedCache ≠ some ref

variable {m middle next : MasterController} {ref other : Nat}

namespace Unreported

theorem of_same (caches : next.orderStateCaches = m.orderStateCaches)
    (notifications : next.notifications = m.notifications) : Unreported ref m next where
  cache cache known := ⟨cache, caches ▸ known, .refl cache⟩
  notifications := ⟨[], by simp [notifications], by simp⟩

theorem refl (m : MasterController) : Unreported ref m m := of_same rfl rfl

theorem trans (first : Unreported ref m middle) (second : Unreported ref middle next) :
    Unreported ref m next where
  cache := by
    intro cache known
    obtain ⟨cache', present, same⟩ := first.cache cache known
    obtain ⟨cache'', still, same'⟩ := second.cache cache' present
    exact ⟨cache'', still, same'.agvId.trans same.agvId, same'.order.trans same.order,
      same'.invoked.trans same.invoked⟩
  notifications := by
    obtain ⟨added, appended, others⟩ := first.notifications
    obtain ⟨added', appended', others'⟩ := second.notifications
    refine ⟨added ++ added', by rw [appended', appended, List.append_assoc], ?_⟩
    intro notification member
    cases List.mem_append.mp member with
    | inl earlier => exact others notification earlier
    | inr later => exact others' notification later

theorem processedReports (unreported : Unreported ref m next) :
    next.processedReports ref = m.processedReports ref := by
  obtain ⟨added, appended, others⟩ := unreported.notifications
  have none : added.filter (·.processedCache = some ref) = [] := by
    rw [List.filter_eq_nil_iff]
    intro notification member
    simpa using others notification member
  unfold MasterController.processedReports
  rw [appended, List.filter_append, none, List.append_nil]

theorem notify (unreported : Unreported ref m next) {notification : Notification}
    (different : notification.processedCache ≠ some ref) :
    Unreported ref m (next.notify notification) := by
  apply unreported.trans
  constructor
  · exact fun cache known => ⟨cache, known, .refl cache⟩
  · exact ⟨[notification], rfl, by simpa using different⟩

theorem updateCache {cache cache' : OrderStateCache}
    (known : m.orderStateCaches[other]? = some cache)
    (same : other = ref → SameReport cache cache') :
    Unreported ref m (m.updateCache other cache') := by
  constructor
  · intro original present
    by_cases equal : other = ref
    · subst equal
      obtain rfl := Option.some.inj (known.symm.trans present)
      exact ⟨cache', updateCache_getElem m cache' known, same rfl⟩
    · refine ⟨original, ?_, .refl original⟩
      unfold MasterController.updateCache
      rw [List.getElem?_set_ne equal]
      exact present
  · exact ⟨[], (List.append_nil _).symm, by simp⟩

theorem removeOrderStateCache (m : MasterController) (ref other : Nat) (deleteLastCache : Bool) :
    Unreported ref m (m.removeOrderStateCache other deleteLastCache) := by
  have kept := removeOrderStateCache_notifications m other deleteLastCache
  constructor
  · intro cache present
    unfold MasterController.removeOrderStateCache
    split
    · exact ⟨cache, present, .refl cache⟩
    · next otherCache known =>
      dsimp only
      rw [deleteOrderStateCache_orderStateCaches]
      split
      · exact (updateCache known fun _ => ⟨rfl, rfl, rfl⟩ : Unreported ref m
          (m.updateCache other { otherCache with lastCache := none })).cache cache present
      · exact ⟨cache, present, .refl cache⟩
  · exact ⟨[], by simp [kept], by simp⟩

theorem stitchOntoActiveOrder {cache : OrderStateCache}
    {stitched : MasterController × OrderStateCache}
    (known : m.orderStateCaches[other]? = some cache)
    (succeeded : m.stitchOntoActiveOrder other cache = some stitched) :
    Unreported ref m stitched.1 := by
  unfold MasterController.stitchOntoActiveOrder at succeeded
  split at succeeded
  · rw [← Option.some.inj succeeded]
    exact .refl m
  · split at succeeded
    · rw [← Option.some.inj succeeded]
      exact .refl m
    · split at succeeded
      · rw [← Option.some.inj succeeded]
        apply trans _ (removeOrderStateCache _ ref _ true)
        exact updateCache known fun _ => ⟨rfl, rfl, rfl⟩
      · cases succeeded

theorem tracked {cache : OrderStateCache} (known : m.orderStateCaches[other]? = some cache)
    (isCanceling : Bool) (state : State) :
    Unreported ref m (m.tracked other (track isCanceling other state cache).1) := by
  have same := track_tracked isCanceling other state cache
  have about := track_isAbout isCanceling other state cache
  have updated : Unreported ref m
      (m.updateCache other (track isCanceling other state cache).1.cache) :=
    updateCache known fun _ => ⟨same.agvId, same.order, same.isOrderProcessedHandlerInvoked⟩
  refine ⟨updated.cache, _, rfl, ?_⟩
  intro notification member
  have progress := about.progress notification member
  cases notification with
  | orderProcessed => exact progress.elim
  | nodeTraversed | edgeTraversing | edgeTraversed | actionStateChanged
  | instantActionStateChanged | instantActionError => exact nofun

end Unreported

/-! ## States with something left of the base -/

private theorem isOrderProcessed_of_hasBase {state : State} (cache : OrderStateCache)
    (hasBase : state.hasBase) : isOrderProcessed cache state = some false := by
  have notEmpty : (state.nodeStates.isEmpty && state.edgeStates.isEmpty) = false := by
    unfold State.hasBase at hasBase
    cases nodes : state.nodeStates with
    | cons node rest => rfl
    | nil =>
        cases edges : state.edgeStates with
        | cons edge rest => rfl
        | nil => simp [nodes, edges] at hasBase
  have released :
      (state.nodeStates.all (!·.released) && state.edgeStates.all (!·.released)) = false := by
    rw [← Bool.not_eq_true]
    intro unreleased
    simp only [State.hasBase, Bool.or_eq_true, Bool.and_eq_true, List.any_eq_true, List.all_eq_true,
      Bool.not_eq_true'] at hasBase unreleased
    rcases hasBase with ⟨node, member, released⟩ | ⟨edge, member, released⟩
    · simp [unreleased.1 node member] at released
    · simp [unreleased.2 edge member] at released
  simp only [isOrderProcessed, notEmpty, released, Bool.false_eq_true, if_false, if_true]

private theorem reportOrderProcessed_unreported {cache : OrderStateCache}
    (known : m.orderStateCaches[other]? = some cache) {state : State}
    (going : other = ref → isOrderProcessed cache state = some false) :
    Unreported ref m (m.reportOrderProcessed other cache state) := by
  unfold reportOrderProcessed
  dsimp only
  split
  · next ends =>
    have different : other ≠ ref := by
      intro same
      simp [going same] at ends
    have updated : Unreported ref m
        (m.updateCache other { cache with isOrderProcessedHandlerInvoked := true }) :=
      .updateCache known fun same => absurd same different
    apply Unreported.notify
    · split
      · exact updated
      · exact updated.trans (.removeOrderStateCache _ ref other true)
    · simpa [Notification.processedCache] using different
  · exact .refl m

private theorem dispatchOrderState_unreported (books : CacheBooks m) {state : State}
    (going : other = ref → state.hasBase) :
    Unreported ref m (m.dispatchOrderState state other) := by
  cases known : m.orderStateCaches[other]? with
  | none =>
      simp only [dispatchOrderState, known]
      exact .refl m
  | some cache =>
      cases succeeded : m.stitchOntoActiveOrder other cache with
      | none =>
          simp only [dispatchOrderState, known, succeeded]
          exact .of_same rfl rfl
      | some stitched =>
          rw [dispatchOrderState_track m known succeeded]
          have present := stitchOntoActiveOrder_known m books known succeeded
          generalize stitched.1.isOrderCanceling stitched.2.agvId state [.running, .finished] =
            isCanceling
          have tracking : Unreported ref m (stitched.1.tracked other
              (track isCanceling other state stitched.2).1) :=
            (Unreported.stitchOntoActiveOrder known succeeded).trans
              (.tracked present isCanceling state)
          dsimp only
          split
          · apply tracking.trans
            apply reportOrderProcessed_unreported
            · exact updateCache_getElem stitched.1 _ present
            · exact fun same => isOrderProcessed_of_hasBase _ (going same)
          · exact tracking.trans (.of_same rfl rfl)

private theorem dispatchError_unreported {agvId : AgvId} {error : Error}
    (accepted : m.rejectedCache agvId error ≠ some ref) :
    Unreported ref m (m.dispatchError agvId error) := by
  unfold dispatchError
  cases rejected : m.rejectedCache agvId error with
  | none => exact .refl m
  | some other =>
      apply (Unreported.removeOrderStateCache m ref other false).notify
      simpa [Notification.processedCache, rejected] using accepted

private theorem dispatchInstantActions_unreported (m : MasterController) (ref : Nat) (agvId : AgvId)
    (state : State) : Unreported ref m (m.dispatchInstantActions agvId state) := by
  obtain ⟨added, appended, none⟩ := dispatchInstantActions_notifications m agvId state
  have same := (dispatchInstantActions_orders m agvId state).1
  refine ⟨fun cache known => ⟨cache, same ▸ known, .refl cache⟩, added, appended, ?_⟩
  intro notification member reported
  have about := orderCache_of_processedCache reported
  rw [none notification member] at about
  cases about

/-! ## Steps -/

/-- The next step of the dispatch of a State leaves the end of an order open:
the error to be looked at does not reject the order, and if the State is about
the order it lists a part of its base. -/
def LeavesOpen (ref : Nat) (m : MasterController) (current : Dispatching) : Prop :=
  (∀ error ∈ current.errors.head?, m.rejectedCache current.agvId error ≠ some ref) ∧
    (current.errors = [] →
      m.getOrderStateCache current.agvId current.state.orderId current.state.orderUpdateId =
        some ref → current.state.hasBase)

theorem continueDispatch_unreported (books : CacheBooks m)
    (leaves : ∀ current, m.dispatching = some current → LeavesOpen ref m current) :
    Unreported ref m m.continueDispatch := by
  have still : ∀ dispatching : Option Dispatching,
      Unreported ref m { m with dispatching := dispatching } := fun _ => .of_same rfl rfl
  unfold continueDispatch
  cases dispatching : m.dispatching with
  | none => exact .refl m
  | some current =>
      obtain ⟨accepted, going⟩ := leaves current dispatching
      dsimp only
      cases remaining : current.errors with
      | cons error errors =>
          apply (still (some { current with errors := errors })).trans
          apply dispatchError_unreported
          exact accepted error (by simp [remaining])
      | nil =>
          dsimp only
          have waiting : CacheBooks { m with dispatching := none } :=
            ⟨books.keyed, books.older, books.assigned⟩
          have order : Unreported ref m
              (dispatchCurrentOrder { m with dispatching := none } current.agvId current.state) := by
            apply (still none).trans
            unfold dispatchCurrentOrder
            split
            · exact .refl _
            · next other found =>
              apply dispatchOrderState_unreported waiting
              rintro rfl
              exact going remaining found
          unfold dispatchOrderAndActions
          dsimp only
          split
          · exact order
          · exact order.trans (dispatchInstantActions_unreported _ ref _ _)

theorem perform_unreported (books : CacheBooks m) {event : MasterEvent}
    (leaves : event = .continueDispatch →
      ∀ current, m.dispatching = some current → LeavesOpen ref m current) :
    Unreported ref m (m.perform event) := by
  cases event with
  | assignOrder agvId order eventHandler =>
      simp only [perform, assignOrder]
      split
      · exact .refl m
      · constructor
        · intro cache known
          refine ⟨cache, ?_, .refl cache⟩
          simp only [addOrderStateCache]
          rw [List.getElem?_append_left (List.getElem?_eq_some_iff.mp known).1]
          exact known
        · exact ⟨[], (List.append_nil _).symm, by simp⟩
  | orderPublished published succeeded =>
      simp only [perform, orderPublished]
      split
      · exact .of_same rfl rfl
      · apply Unreported.trans _ (.removeOrderStateCache _ ref published false)
        exact .of_same rfl rfl
  | initiateInstantActions agvId actions eventHandler =>
      simp only [perform, initiateInstantActions]
      split <;> exact .of_same rfl rfl
  | instantActionsPublished pending succeeded =>
      simp only [perform, instantActionsPublished]
      split
      · exact .of_same rfl rfl
      · split <;> exact .of_same rfl rfl
  | state agvId state => exact .of_same rfl rfl
  | continueDispatch => exact continueDispatch_unreported books (leaves rfl)

/-! ## The end of a canceled order -/

/-- The `cancelOrder` action by which `_isOrderCanceling` decides. -/
def decidingCancelOrder (m : MasterController) (agvId : AgvId) : Option String :=
  ((m.cachedInstantActions agvId).find? (·.2.action.actionType = "cancelOrder")).map (·.1)

private theorem isOrderCanceling_eq (m : MasterController) (agvId : AgvId) (state : State)
    (cancelStatus : List ActionStatus) :
    m.isOrderCanceling agvId state cancelStatus =
      (m.decidingCancelOrder agvId).any fun actionId =>
        (state.actionStates.find? (·.actionId = actionId)).any
          (cancelStatus.contains ·.actionStatus) := by
  unfold isOrderCanceling decidingCancelOrder cachedInstantActions
  dsimp only
  split <;> simp [*]

/-- The cache of an order after the action states of a State have been looked at. -/
def actionsReported (ref : Nat) (state : State) (cache : OrderStateCache) : OrderStateCache :=
  (state.actionStates.foldl (updateActionState ref state) { cache := cache }).cache

/-- The actions of the order have ended according to a State and those before. -/
def AreActionsEnded (m : MasterController) (ref : Nat) (state : State) : Prop :=
  ∀ cache ∈ m.orderStateCaches[ref]?, ∀ stitched ∈ m.stitchOntoActiveOrder ref cache,
    ∀ entry ∈ (actionsReported ref state stitched.2).mappedActions,
      ((actionsReported ref state stitched.2).lastActionStates.lookup entry.2.1.actionId).any
        (·.actionStatus.isEnded)

private theorem updateEdgeStateChanges_lastActionStates (ref : Nat) (edge : Edge)
    (startNode endNode : Option Node) (state : State) (d : Dispatch) :
    (updateEdgeStateChanges ref edge startNode endNode state d).cache.lastActionStates =
      d.cache.lastActionStates := by
  unfold updateEdgeStateChanges
  dsimp only
  split
  · rfl
  · split <;> rfl

private theorem processEdgeEvents_lastActionStates (isCanceling : Bool) (ref : Nat) (state : State)
    (lastNode : Node) (d : Dispatch) :
    (processEdgeEvents isCanceling ref state lastNode d).cache.lastActionStates =
      d.cache.lastActionStates := by
  have updated := updateEdgeStateChanges_lastActionStates ref
  unfold processEdgeEvents
  split
  · rfl
  · split
    · rfl
    · dsimp only
      split
      · split
        · exact updated _ _ _ _ _
        · rfl
      · split
        · rfl
        · exact updated _ _ _ _ _

private theorem track_lastActionStates (isCanceling : Bool) (ref : Nat) (state : State)
    (cache : OrderStateCache) :
    (track isCanceling ref state cache).1.cache.lastActionStates =
      (actionsReported ref state cache).lastActionStates := by
  have traversal : (updateTraversal isCanceling ref state
      (state.actionStates.foldl (updateActionState ref state)
        { cache := cache })).cache.lastActionStates =
        (actionsReported ref state cache).lastActionStates := by
    unfold updateTraversal
    split
    · rfl
    · exact processEdgeEvents_lastActionStates ..
  unfold track
  dsimp only
  split
  · exact traversal
  · next nextNode _ =>
    cases nextNode with
    | none => exact traversal
    | some nextNode =>
        exact (processEdgeEvents_lastActionStates _ _ _ _ _).trans traversal

private theorem actionsReported_mappedActions (ref : Nat) (state : State)
    (cache : OrderStateCache) :
    (actionsReported ref state cache).mappedActions = cache.mappedActions :=
  (foldl_updateActionState_tracked ref state state.actionStates { cache := cache }).mappedActions

/-- The end of the order is reported on its handler, and the order left. -/
private theorem reportOrderProcessed_ends (books : CacheBooks m) {cache : OrderStateCache}
    (known : m.orderStateCaches[ref]? = some cache)
    (uncalled : cache.isOrderProcessedHandlerInvoked = false) {state : State}
    (finished : IsFinished cache state) :
    (m.reportOrderProcessed ref cache state).notifications = m.notifications ++
        [.orderProcessed ref none (m.isOrderCanceling cache.agvId state [.finished]) false] ∧
      ¬ (m.reportOrderProcessed ref cache state).IsActive ref := by
  have move := updateCache_move m (fun _ _ _ => False) known
    (⟨rfl, rfl, fun _ => id⟩ :
      SameCache cache { cache with isOrderProcessedHandlerInvoked := true })
  have present := updateCache_getElem m { cache with isOrderProcessedHandlerInvoked := true } known
  have inactive := removeOrderStateCache_inactive (move.books books) present true
  have kept := removeOrderStateCache_notifications
    (m.updateCache ref { cache with isOrderProcessedHandlerInvoked := true }) ref true
  unfold reportOrderProcessed
  rw [finished.isOrderProcessed]
  simp only [uncalled]
  constructor
  · exact congrArg (· ++ _) kept
  · exact inactive

/-- A State that lists nothing of an order and reports its actions as ended and
its cancelation as finished ends the order as a canceled one. -/
private theorem dispatchOrderState_canceled (books : CacheBooks m) {agvId : AgvId} {state : State}
    {actionId : String}
    (found : m.getOrderStateCache agvId state.orderId state.orderUpdateId = some ref)
    (uncalled : ∀ cache, m.orderStateCaches[ref]? = some cache →
      cache.isOrderProcessedHandlerInvoked = false)
    (nodeStates : state.nodeStates = []) (edgeStates : state.edgeStates = [])
    (ended : AreActionsEnded m ref state) (finished : state.reportsFinished actionId)
    (decides : m.decidingCancelOrder agvId = some actionId) :
    (m.dispatchOrderState state ref).crashed ∧
        (m.dispatchOrderState state ref).processedReports ref = m.processedReports ref ∨
      (m.dispatchOrderState state ref).processedReports ref =
          m.processedReports ref ++ [.orderProcessed ref none true false] ∧
        ¬ (m.dispatchOrderState state ref).IsActive ref := by
  obtain ⟨cache, known, rfl, orderId, orderUpdateId⟩ := books.keyed _ _ _ _ found
  cases succeeded : m.stitchOntoActiveOrder ref cache with
  | none =>
      left
      simp only [dispatchOrderState, known, succeeded]
      exact ⟨rfl, rfl⟩
  | some stitched =>
      rw [dispatchOrderState_track m known succeeded]
      have present := stitchOntoActiveOrder_known m books known succeeded
      have stitching : Unreported ref m stitched.1 := .stitchOntoActiveOrder known succeeded
      generalize isCanceling : stitched.1.isOrderCanceling stitched.2.agvId state
        [.running, .finished] = canceling
      have tracking : Unreported ref m
          (stitched.1.tracked ref (track canceling ref state stitched.2).1) :=
        stitching.trans (.tracked present canceling state)
      have same := track_tracked canceling ref state stitched.2
      dsimp only
      split
      · right
        obtain ⟨cache', present', also⟩ := stitching.cache cache known
        obtain rfl := Option.some.inj (present.symm.trans present')
        have updated := updateCache_move stitched.1 (fun _ _ _ => False) present same.same
        have tracked : CachesMove (fun _ _ _ => False) stitched.1 (stitched.1.tracked ref
            (track canceling ref state stitched.2).1) := updated.then_same rfl rfl
        have trackedBooks := tracked.books
          ((stitchOntoActiveOrder_move m (fun _ _ _ => False) known succeeded).books books)
        have isFinished : IsFinished (track canceling ref state stitched.2).1.cache state := by
          refine ⟨nodeStates, edgeStates, fun entry member => ?_⟩
          rw [track_lastActionStates]
          apply ended cache known stitched succeeded entry
          rw [actionsReported_mappedActions, ← same.mappedActions]
          exact member
        obtain ⟨reported, inactive⟩ := reportOrderProcessed_ends trackedBooks
          (updateCache_getElem stitched.1 _ present)
          (same.isOrderProcessedHandlerInvoked.trans (also.invoked.trans (uncalled cache known)))
          isFinished
        have decided : (stitched.1.tracked ref (track canceling ref state
            stitched.2).1).isOrderCanceling (track canceling ref state stitched.2).1.cache.agvId
              state [.finished] = true := by
          have actions := (SameActions.stitchOntoActiveOrder succeeded).trans
            (.tracked stitched.1 (track_isAbout canceling ref state stitched.2))
          rw [isOrderCanceling_eq, same.agvId, also.agvId]
          unfold decidingCancelOrder at decides ⊢
          rw [actions.cachedInstantActions, decides]
          unfold State.reportsFinished at finished
          simpa using finished
        refine ⟨?_, inactive⟩
        rw [decided] at reported
        rw [← tracking.processedReports]
        unfold processedReports
        rw [reported, List.filter_append]
        simp [Notification.processedCache]
      · exact .inl ⟨rfl, tracking.processedReports⟩

/-- The order is left as a canceled one when the State has been dispatched. -/
theorem continueDispatch_canceled (books : CacheBooks m) {current : Dispatching}
    {actionId : String} (dispatching : m.dispatching = some current)
    (handled : current.errors = [])
    (found : m.getOrderStateCache current.agvId current.state.orderId
      current.state.orderUpdateId = some ref)
    (uncalled : ∀ cache, m.orderStateCaches[ref]? = some cache →
      cache.isOrderProcessedHandlerInvoked = false)
    (nodeStates : current.state.nodeStates = []) (edgeStates : current.state.edgeStates = [])
    (ended : AreActionsEnded { m with dispatching := none } ref current.state)
    (finished : current.state.reportsFinished actionId)
    (decides : m.decidingCancelOrder current.agvId = some actionId) :
    m.continueDispatch.crashed ∧ m.continueDispatch.processedReports ref = m.processedReports ref ∨
      m.continueDispatch.processedReports ref =
          m.processedReports ref ++ [.orderProcessed ref none true false] ∧
        ¬ m.continueDispatch.IsActive ref := by
  have waiting : CacheBooks { m with dispatching := none } :=
    ⟨books.keyed, books.older, books.assigned⟩
  have ends := dispatchOrderState_canceled waiting found uncalled nodeStates edgeStates ended
    finished decides
  have order : m.continueDispatch = if (dispatchOrderState { m with dispatching := none }
        current.state ref).crashed then
      dispatchOrderState { m with dispatching := none } current.state ref
    else (dispatchOrderState { m with dispatching := none } current.state
      ref).dispatchInstantActions current.agvId current.state := by
    have still : getOrderStateCache { m with dispatching := none } current.agvId
        current.state.orderId current.state.orderUpdateId = some ref := found
    simp only [continueDispatch, dispatching, handled, dispatchOrderAndActions,
      dispatchCurrentOrder, still]
  rw [order]
  split
  · next crashed =>
    cases ends with
    | inl stuck => exact .inl stuck
    | inr left => exact .inr left
  · next running =>
    cases ends with
    | inl stuck => exact absurd stuck.1 running
    | inr left =>
        right
        generalize dispatchOrderState { m with dispatching := none } current.state ref = next
          at left
        have silent := dispatchInstantActions_unreported next ref current.agvId current.state
        have orders := (dispatchInstantActions_orders next current.agvId current.state).2
        constructor
        · rw [silent.processedReports]
          exact left.1
        · rintro ⟨agvId, orderId, orderUpdateId, active⟩
          apply left.2
          refine ⟨agvId, orderId, orderUpdateId, ?_⟩
          unfold getOrderStateCache at active ⊢
          rwa [orders] at active

/-! ## Reports of errors -/

/-- The order that a handler has been told to have failed. -/
def Notification.failedCache : Notification → Option Nat
  | .orderProcessed cache (some _) .. => some cache
  | _ => none

private theorem processedCache_of_failedCache {notification : Notification}
    (reported : notification.failedCache = some ref) : notification.processedCache = some ref := by
  cases notification with
  | orderProcessed cache withError =>
      cases withError with
      | none => cases reported
      | some error => exact reported
  | _ => cases reported

/-- The end of an order is reported without an error. -/
private theorem reportOrderProcessed_failedCache (m : MasterController) (ref : Nat)
    (cache : OrderStateCache) (state : State) :
    ∀ notification ∈ (m.reportOrderProcessed ref cache state).notifications,
      notification ∈ m.notifications ∨ notification.failedCache = none := by
  intro notification member
  unfold reportOrderProcessed at member
  dsimp only at member
  split at member
  · cases List.mem_append.mp member with
    | inl earlier =>
        left
        split at earlier
        · exact earlier
        · rw [removeOrderStateCache_notifications] at earlier
          exact earlier
    | inr new =>
        right
        rw [List.mem_singleton.mp new]
        rfl
  · exact .inl member

private theorem dispatchOrderState_failedCache (m : MasterController) (state : State) (ref : Nat) :
    ∀ notification ∈ (m.dispatchOrderState state ref).notifications,
      notification ∈ m.notifications ∨ notification.failedCache = none := by
  cases known : m.orderStateCaches[ref]? with
  | none =>
      simp only [dispatchOrderState, known]
      exact fun _ => .inl
  | some cache =>
      cases succeeded : m.stitchOntoActiveOrder ref cache with
      | none =>
          simp only [dispatchOrderState, known, succeeded]
          exact fun _ => .inl
      | some stitched =>
          rw [dispatchOrderState_track m known succeeded]
          have same := stitchOntoActiveOrder_notifications succeeded
          generalize stitched.1.isOrderCanceling stitched.2.agvId state [.running, .finished] =
            isCanceling
          have about := track_isAbout isCanceling ref state stitched.2
          generalize track isCanceling ref state stitched.2 = result at about
          have tracking : ∀ notification ∈ (stitched.1.tracked ref result.1).notifications,
              notification ∈ m.notifications ∨ notification.failedCache = none := by
            intro notification member
            cases List.mem_append.mp member with
            | inl earlier => exact .inl (same ▸ earlier)
            | inr new =>
                right
                have progress := about.progress notification new
                cases notification with
                | orderProcessed => exact progress.elim
                | _ => rfl
          dsimp only
          split
          · intro notification member
            rcases reportOrderProcessed_failedCache _ _ _ _ notification member with earlier | none
            · exact tracking notification earlier
            · exact .inr none
          · exact tracking

/-- An error is reported on an order only if the error looked at rejects it. -/
private theorem continueDispatch_failedCache {current : Dispatching}
    (dispatching : m.dispatching = some current) {notification : Notification}
    (member : notification ∈ m.continueDispatch.notifications)
    (reported : notification.failedCache = some ref) :
    notification ∈ m.notifications ∨
      ∃ error ∈ current.errors.head?, m.rejectedCache current.agvId error = some ref := by
  simp only [continueDispatch, dispatching] at member
  cases remaining : current.errors with
  | cons error errors =>
      simp only [remaining, dispatchError] at member
      split at member
      · exact .inl member
      · next other rejected =>
        cases List.mem_append.mp member with
        | inl earlier =>
            left
            rw [removeOrderStateCache_notifications] at earlier
            exact earlier
        | inr new =>
            rw [List.mem_singleton.mp new] at reported
            obtain rfl := Option.some.inj reported
            exact .inr ⟨error, rfl, rejected⟩
  | nil =>
      left
      simp only [remaining, dispatchOrderAndActions] at member
      have order : notification ∈ (dispatchCurrentOrder { m with dispatching := none } current.agvId
          current.state).notifications := by
        split at member
        · exact member
        · obtain ⟨added, appended, none⟩ := dispatchInstantActions_notifications
            (dispatchCurrentOrder { m with dispatching := none } current.agvId current.state)
            current.agvId current.state
          rw [appended] at member
          cases List.mem_append.mp member with
          | inl earlier => exact earlier
          | inr new =>
              have about := orderCache_of_processedCache (processedCache_of_failedCache reported)
              rw [none notification new] at about
              cases about
      unfold dispatchCurrentOrder at order
      split at order
      · exact order
      · rcases dispatchOrderState_failedCache _ _ _ notification order with earlier | none
        · exact earlier
        · rw [none] at reported
          cases reported

/-- Nothing but the dispatch of States reports errors. -/
theorem perform_failedCache {event : MasterEvent} {notification : Notification}
    (member : notification ∈ (m.perform event).notifications)
    (reported : notification.failedCache = some ref) :
    notification ∈ m.notifications ∨
      event = .continueDispatch ∧ ∃ current, m.dispatching = some current ∧
        ∃ error ∈ current.errors.head?, m.rejectedCache current.agvId error = some ref := by
  cases event with
  | assignOrder agvId order eventHandler =>
      simp only [perform, assignOrder] at member
      split at member <;> exact .inl member
  | orderPublished published succeeded =>
      simp only [perform, orderPublished] at member
      split at member
      · exact .inl member
      · rw [removeOrderStateCache_notifications] at member
        exact .inl member
  | initiateInstantActions agvId actions eventHandler =>
      simp only [perform, initiateInstantActions] at member
      split at member <;> exact .inl member
  | instantActionsPublished pending succeeded =>
      simp only [perform, instantActionsPublished] at member
      split at member
      · exact .inl member
      · split at member <;> exact .inl member
  | state agvId state => exact .inl member
  | continueDispatch =>
      cases dispatching : m.dispatching with
      | none =>
          simp only [perform, continueDispatch, dispatching] at member
          exact .inl member
      | some current =>
          exact (continueDispatch_failedCache dispatching member reported).imp_right fun rejects =>
            ⟨rfl, current, rfl, rejects⟩

end MasterController

end Vda5050
