import Vda5050.MasterController.Caches

/-!
# Finished orders in the master controller

An order is finished once a State has been dispatched to its cache in which no
node and edge states are left and all of its mapped actions have ended. Its
cache is removed with the first call of `onOrderProcessed` without error. This
call is made while the order is still active if its base has been processed and
its horizon is left. The cache of such an order stays when the order is finished.
-/

set_option autoImplicit false

namespace Vda5050

namespace MasterController

variable {m next : MasterController} {ref : Nat} {cache : OrderStateCache} {state : State}

/-! ## The end of an order -/

/-- Nothing of an order is left to be done. -/
structure IsFinished (cache : OrderStateCache) (state : State) : Prop where
  nodeStates : state.nodeStates = []
  edgeStates : state.edgeStates = []
  actions : ∀ entry ∈ cache.mappedActions,
    (cache.lastActionStates.lookup entry.2.1.actionId).any (·.actionStatus.isEnded)

/-- The order with the cache at `ref` is finished after the dispatch of a State. -/
def IsFinishedBy (m : MasterController) (ref : Nat) (state : State) : Prop :=
  ∃ cache, m.orderStateCaches[ref]? = some cache ∧ IsFinished cache state

theorem IsFinished.isOrderProcessed (finished : IsFinished cache state) :
    isOrderProcessed cache state = some true := by
  have ended : cache.mappedActions.all (fun entry =>
      (cache.lastActionStates.lookup entry.2.1.actionId).any (·.actionStatus.isEnded)) = true :=
    List.all_eq_true.mpr finished.actions
  unfold MasterController.isOrderProcessed
  simp only [finished.nodeStates, finished.edgeStates, ended]
  rfl

/-- The cache of a finished order is removed if this is the first report of its end. -/
private theorem reportOrderProcessed_finished (known : m.orderStateCaches[ref]? = some cache)
    (finished : IsFinished cache state) :
    (m.reportOrderProcessed ref cache state).getOrderStateCache cache.agvId cache.order.orderId
        cache.order.orderUpdateId =
      if cache.isOrderProcessedHandlerInvoked then
        m.getOrderStateCache cache.agvId cache.order.orderId cache.order.orderUpdateId
      else none := by
  unfold reportOrderProcessed
  rw [finished.isOrderProcessed]
  cases invoked : cache.isOrderProcessedHandlerInvoked with
  | true => simp
  | false =>
      have present := updateCache_getElem m
        { cache with isOrderProcessedHandlerInvoked := true } known
      have removed : ((m.updateCache ref
          { cache with isOrderProcessedHandlerInvoked := true }).removeOrderStateCache ref
            true).getOrderStateCache cache.agvId cache.order.orderId
              cache.order.orderUpdateId = none := by
        unfold removeOrderStateCache
        simp only [present, if_true]
        rw [getOrderStateCache_delete, if_pos rfl]
      simp only [Bool.false_eq_true, if_false]
      exact removed

/-- The report of the end of an order leaves the data of its actions as they are. -/
private theorem reportOrderProcessed_cache (known : m.orderStateCaches[ref]? = some cache)
    (state : State) :
    ∃ final, (m.reportOrderProcessed ref cache state).orderStateCaches[ref]? = some final ∧
      final.agvId = cache.agvId ∧ final.order = cache.order ∧
      final.mappedActions = cache.mappedActions ∧
      final.lastActionStates = cache.lastActionStates := by
  unfold reportOrderProcessed
  simp only
  split
  · have present := updateCache_getElem m
      { cache with isOrderProcessedHandlerInvoked := true } known
    split
    · exact ⟨_, present, rfl, rfl, rfl, rfl⟩
    · refine ⟨{ cache with isOrderProcessedHandlerInvoked := true, lastCache := none }, ?_,
        rfl, rfl, rfl, rfl⟩
      unfold notify removeOrderStateCache
      simp only [present, if_true, deleteOrderStateCache_orderStateCaches]
      exact updateCache_getElem _ _ present
  · exact ⟨cache, known, rfl, rfl, rfl, rfl⟩

/-! ## Stitching -/

/-- Stitching an order onto an active one removes the cache of the latter only. -/
theorem stitchOntoActiveOrder_found (books : CacheBooks m)
    {stitched : MasterController × OrderStateCache}
    (known : m.orderStateCaches[ref]? = some cache)
    (found : m.getOrderStateCache cache.agvId cache.order.orderId cache.order.orderUpdateId =
      some ref)
    (succeeded : m.stitchOntoActiveOrder ref cache = some stitched) :
    stitched.1.getOrderStateCache cache.agvId cache.order.orderId cache.order.orderUpdateId =
        some ref ∧
      stitched.2.agvId = cache.agvId ∧ stitched.2.order = cache.order ∧
      stitched.2.isOrderProcessedHandlerInvoked = cache.isOrderProcessedHandlerInvoked := by
  unfold stitchOntoActiveOrder at succeeded
  split at succeeded
  · obtain rfl := Option.some.inj succeeded
    exact ⟨found, rfl, rfl, rfl⟩
  · next lastRef active =>
    split at succeeded
    · obtain rfl := Option.some.inj succeeded
      exact ⟨found, rfl, rfl, rfl⟩
    · next lastCache present =>
      split at succeeded
      · next firstNode baseEnd _ _ =>
        obtain rfl := Option.some.inj succeeded
        refine ⟨?_, rfl, rfl, rfl⟩
        have different : lastRef ≠ ref :=
          (getLastActiveOrderStateCache_lt m books known active).ne
        have present' : (m.updateCache ref
            (cache.stitch lastCache firstNode baseEnd)).orderStateCaches[lastRef]? =
              some lastCache := by
          unfold updateCache
          rw [List.getElem?_set_ne different.symm]
          exact present
        -- the ids of the active order are not those of this one
        obtain ⟨active', known', current⟩ := findActiveCache_spec m active
        obtain rfl := Option.some.inj (present.symm.trans known')
        obtain ⟨-, known'', sameAgv, -⟩ := books.keyed _ _ _ _ current
        unfold removeOrderStateCache
        simp only [present', if_true]
        rw [getOrderStateCache_delete, if_neg]
        · exact found
        · intro same
          simp only [Prod.mk.injEq] at same
          obtain ⟨agv, orderId, orderUpdateId⟩ := same
          rw [← orderId, ← orderUpdateId, found] at current
          exact different (Option.some.inj current).symm
      · cases succeeded

/-- The cache of an order that is finished by a State stays if the end of the
order has been reported before. -/
private theorem dispatchOrderState_finished (books : CacheBooks m)
    (known : m.orderStateCaches[ref]? = some cache)
    (found : m.getOrderStateCache cache.agvId cache.order.orderId cache.order.orderUpdateId =
      some ref)
    (completed : (m.dispatchOrderState state ref).crashed = false)
    (finished : IsFinishedBy (m.dispatchOrderState state ref) ref state) :
    (∃ final, (m.dispatchOrderState state ref).orderStateCaches[ref]? = some final ∧
        final.agvId = cache.agvId ∧ final.order = cache.order) ∧
      (m.dispatchOrderState state ref).getOrderStateCache cache.agvId cache.order.orderId
          cache.order.orderUpdateId =
        if cache.isOrderProcessedHandlerInvoked then some ref else none := by
  rcases dispatchOrderState_spec m state known with
    ended | ⟨stitched, tracked, notifications, succeeded, same, ended⟩
  · simp [ended, throwTypeError] at completed
  · rcases ended with ended | ended
    · simp [ended, throwTypeError] at completed
    · obtain ⟨kept, agvId, order, invoked⟩ :=
        stitchOntoActiveOrder_found books known found succeeded
      have present : { stitched.1.updateCache ref tracked with
          notifications := notifications }.orderStateCaches[ref]? = some tracked :=
        updateCache_getElem stitched.1 tracked (stitchOntoActiveOrder_known m books known succeeded)
      obtain ⟨final, known', agvId', order', mapped, states⟩ :=
        reportOrderProcessed_cache present state
      rw [← ended] at known'
      have same' : tracked.agvId = cache.agvId ∧ tracked.order = cache.order :=
        ⟨same.agvId.trans agvId, same.order.trans order⟩
      refine ⟨⟨final, known', agvId'.trans same'.1, order'.trans same'.2⟩, ?_⟩
      obtain ⟨final', known'', nodeStates, edgeStates, actions⟩ := finished
      obtain rfl := Option.some.inj (known'.symm.trans known'')
      rw [mapped, states] at actions
      have report := reportOrderProcessed_finished present ⟨nodeStates, edgeStates, actions⟩
      rw [← ended, same'.1, same'.2, same.isOrderProcessedHandlerInvoked, invoked] at report
      rw [report]
      split
      · exact kept
      · rfl

/-! ## Runs -/

/-- An order has left the master controller: it can be assigned again, and no
other order is stitched onto it. -/
structure NoTrace (m : MasterController) (agvId : AgvId) (orderId : String) (orderUpdateId ref : Nat) :
    Prop where
  removed : m.getOrderStateCache agvId orderId orderUpdateId = none
  assignable : ∀ events later,
    Library.Run step (fun _ event => ¬ event.Assigns agvId orderId orderUpdateId) m events later →
      ∀ order eventHandler, order.orderId = orderId → order.orderUpdateId = orderUpdateId →
        (later.assignOrder agvId order eventHandler).pendingOrders =
          later.pendingOrders ++ [later.orderStateCaches.length]
  unused : ∀ events later, Library.Run step (fun _ _ => True) m events later →
    ∀ cache, later.getLastActiveOrderStateCache cache ≠ some ref

private theorem assignOrder_pendingOrders {agvId : AgvId} {order : Order} (eventHandler : Nat)
    (removed : m.getOrderStateCache agvId order.orderId order.orderUpdateId = none) :
    (m.assignOrder agvId order eventHandler).pendingOrders =
      m.pendingOrders ++ [m.orderStateCaches.length] := by
  unfold assignOrder
  rw [removed]
  rfl

/-- An order has left the master controller as soon as its cache is not found. -/
private theorem NoTrace.of_removed (books : CacheBooks m)
    (known : m.orderStateCaches[ref]? = some cache)
    (removed : m.getOrderStateCache cache.agvId cache.order.orderId cache.order.orderUpdateId =
      none) :
    NoTrace m cache.agvId cache.order.orderId cache.order.orderUpdateId ref where
  removed := removed
  assignable := by
    intro events later run order eventHandler rfl' rfl''
    have absent : CacheBooks later ∧ later.getOrderStateCache cache.agvId cache.order.orderId
        cache.order.orderUpdateId = none := by
      refine Library.Run.invariant (fun later => CacheBooks later ∧
        later.getOrderStateCache cache.agvId cache.order.orderId cache.order.orderUpdateId = none)
        ⟨books, removed⟩ ?_ run
      rintro events middle event next - ⟨books, absent⟩ other stepped
      obtain ⟨-, rfl⟩ := step_eq_some.mp stepped
      have move := perform_move middle books event
      refine ⟨move.books books, Option.eq_none_iff_forall_ne_some.mpr fun found isFound => ?_⟩
      rcases move.found _ _ _ _ isFound with old | ⟨-, assigns⟩
      · simp [absent] at old
      · exact other assigns
    exact assignOrder_pendingOrders eventHandler (by rw [rfl', rfl'']; exact absent.2)
  unused := by
    intro events later run other active
    have never : CacheBooks later ∧ ref < later.orderStateCaches.length ∧
        ∀ agvId orderId orderUpdateId,
          later.getOrderStateCache agvId orderId orderUpdateId ≠ some ref := by
      refine Library.Run.invariant (fun later => CacheBooks later ∧
        ref < later.orderStateCaches.length ∧ ∀ agvId orderId orderUpdateId,
          later.getOrderStateCache agvId orderId orderUpdateId ≠ some ref)
        ⟨books, (List.getElem?_eq_some_iff.mp known).1, ?_⟩ ?_ run
      · intro agvId orderId orderUpdateId found
        obtain ⟨original, present, rfl, rfl, rfl⟩ := books.keyed _ _ _ _ found
        obtain rfl := Option.some.inj (known.symm.trans present)
        simp [removed] at found
      · rintro events middle event next - ⟨books, old, never⟩ - stepped
        obtain ⟨-, rfl⟩ := step_eq_some.mp stepped
        have move := perform_move middle books event
        refine ⟨move.books books, old.trans_le move.length, fun _ _ _ found => ?_⟩
        rcases move.found _ _ _ _ found with known | ⟨new, -⟩
        · exact never _ _ _ known
        · exact absurd old new.not_gt
    obtain ⟨_, _, found⟩ := findActiveCache_spec later active
    exact never.2.2 _ _ _ found

private theorem getOrderStateCache_same (current : next.currentOrders = m.currentOrders)
    (agvId : AgvId) (orderId : String) (orderUpdateId : Nat) :
    next.getOrderStateCache agvId orderId orderUpdateId =
      m.getOrderStateCache agvId orderId orderUpdateId := by
  unfold getOrderStateCache
  rw [current]

/-- A finished order leaves no trace in the master controller unless
`onOrderProcessed` has been called for it before. -/
theorem noTrace_iff {events : List MasterEvent} {current : Dispatching}
    (run : MasterRun events m) (dispatching : m.dispatching = some current)
    (handled : current.errors = [])
    (found : m.getOrderStateCache current.agvId current.state.orderId
      current.state.orderUpdateId = some ref)
    (known : m.orderStateCaches[ref]? = some cache)
    (stepped : m.step .continueDispatch = some next) (completed : next.crashed = false)
    (finished : IsFinishedBy next ref current.state) :
    NoTrace next current.agvId current.state.orderId current.state.orderUpdateId ref ↔
      cache.isOrderProcessedHandlerInvoked = false := by
  have books := CacheBooks.of_run run
  obtain ⟨agv, ids⟩ : cache.agvId = current.agvId ∧ cache.order.orderId = current.state.orderId ∧
      cache.order.orderUpdateId = current.state.orderUpdateId := by
    obtain ⟨original, present, ids⟩ := books.keyed _ _ _ _ found
    obtain rfl := Option.some.inj (known.symm.trans present)
    exact ids
  obtain ⟨-, rfl⟩ := step_eq_some.mp stepped
  have performed : m.perform .continueDispatch =
      { m with dispatching := none }.dispatchOrderAndActions current.agvId current.state := by
    simp only [perform, continueDispatch, dispatching, handled]
  rw [performed] at completed finished ⊢
  generalize idle : { m with dispatching := none } = m' at completed finished ⊢
  have move : CachesMove (fun _ _ _ => True) m m' := idle ▸ .of_same rfl rfl
  have known' : m'.orderStateCaches[ref]? = some cache := idle ▸ known
  have found' : m'.getOrderStateCache cache.agvId cache.order.orderId cache.order.orderUpdateId =
      some ref := by
    rw [agv, ids.1, ids.2]
    exact idle ▸ found
  have dispatched : m'.dispatchCurrentOrder current.agvId current.state =
      m'.dispatchOrderState current.state ref := by
    unfold dispatchCurrentOrder
    rw [← agv, ← ids.1, ← ids.2, found']
  unfold dispatchOrderAndActions at completed finished ⊢
  simp only [dispatched] at completed finished ⊢
  cases crashed : (m'.dispatchOrderState current.state ref).crashed with
  | true => simp [crashed] at completed
  | false =>
      simp only [crashed, Bool.false_eq_true, if_false] at finished ⊢
      have same := dispatchInstantActions_orders (m'.dispatchOrderState current.state ref)
        current.agvId current.state
      have books' := (dispatchOrderState_move m' (fun _ _ _ => True) (move.books books)
        current.state ref).then_same same.1 same.2 |>.books (move.books books)
      unfold IsFinishedBy at finished
      rw [same.1] at finished
      obtain ⟨⟨final, present, sameIds⟩, kept⟩ :=
        dispatchOrderState_finished (move.books books) known' found' crashed finished
      have lookups := getOrderStateCache_same same.2
      rw [← lookups] at kept
      rw [← same.1] at present
      generalize (m'.dispatchOrderState current.state ref).dispatchInstantActions current.agvId
        current.state = next at books' present kept ⊢
      rw [← agv, ← ids.1, ← ids.2]
      constructor
      · intro noTrace
        rw [noTrace.removed] at kept
        cases invoked : cache.isOrderProcessedHandlerInvoked with
        | true => simp [invoked] at kept
        | false => rfl
      · intro first
        rw [first, if_neg (by simp)] at kept
        rw [← sameIds.1, ← sameIds.2] at kept ⊢
        exact .of_removed books' present kept

/-! ## An order with a horizon -/

def vehicle : AgvId where
  manufacturer := "manufacturer"
  serialNumber := "001"

/-- An order along one edge, in the base or in the horizon. -/
def edgeOrder (released : Bool) : Order where
  orderId := "order"
  orderUpdateId := 0
  nodes :=
    [{ nodeId := "start", sequenceId := 0, released := true, actions := [] },
      { nodeId := "end", sequenceId := 2, released := released, actions := [] }]
  edges :=
    [{ edgeId := "edge"
       sequenceId := 1
       released := released
       startNodeId := "start"
       endNodeId := "end"
       actions := [] }]

/-- A State of the order `edgeOrder` after the node `lastNodeId`. -/
def edgeOrderState (lastNodeId : String) (lastNodeSequenceId : Nat) (nodeStates : List NodeState)
    (edgeStates : List EdgeState) (actionStates : List ActionState) : State where
  actionStates := actionStates
  batteryState := { batteryCharge := 80, charging := false }
  driving := false
  edgeStates := edgeStates
  errors := []
  lastNodeId := lastNodeId
  lastNodeSequenceId := lastNodeSequenceId
  nodeStates := nodeStates
  operatingMode := .automatic
  orderId := "order"
  orderUpdateId := 0
  safetyState := { eStop := .none, fieldViolation := false }

def cancelOrder : Action where
  actionId := "cancel"
  actionType := "cancelOrder"
  blockingType := .hard

/-- Only the horizon of the order is left. -/
def horizonState : State :=
  edgeOrderState "start" 0 [{ nodeId := "end", sequenceId := 2, released := false }]
    [{ edgeId := "edge", sequenceId := 1, released := false }] []

/-- The order has been canceled together with its horizon. -/
def canceledState : State :=
  edgeOrderState "start" 0 [] []
    [{ actionId := "cancel", actionStatus := .finished, actionType := "cancelOrder" }]

def completedState : State := edgeOrderState "end" 2 [] [] []

/-- An order without actions is finished as soon as its nodes and edges are. -/
private theorem isFinishedBy_of_noActions
    (known : (m.orderStateCaches[ref]?).any (·.mappedActions.isEmpty) = true)
    (nodeStates : state.nodeStates = []) (edgeStates : state.edgeStates = []) :
    IsFinishedBy m ref state := by
  cases present : m.orderStateCaches[ref]? with
  | none => simp [present] at known
  | some cache =>
      refine ⟨cache, present, nodeStates, edgeStates, ?_⟩
      have empty : cache.mappedActions = [] := by simpa [present] using known
      simp [empty]

theorem noTrace_of_completed :
    ∃ m next,
      MasterRun [.assignOrder vehicle (edgeOrder true) 0, .orderPublished 0 true,
        .state vehicle completedState] m ∧
      m.step .continueDispatch = some next ∧ IsFinishedBy next 0 completedState ∧
      NoTrace next vehicle "order" 0 0 := by
  obtain ⟨m, run, passed⟩ := MasterRun.exists_of_execute
    [.assignOrder vehicle (edgeOrder true) 0, .orderPublished 0 true,
      .state vehicle completedState]
    (fun m => m.enabled .continueDispatch && !(m.perform .continueDispatch).crashed &&
      decide (m.dispatching =
        some { agvId := vehicle, state := completedState, errors := [] }) &&
      decide (m.getOrderStateCache vehicle "order" 0 = some 0) &&
      (m.orderStateCaches[0]?).any (!·.isOrderProcessedHandlerInvoked) &&
      ((m.perform .continueDispatch).orderStateCaches[0]?).any (·.mappedActions.isEmpty))
    (by decide)
  simp only [Bool.and_eq_true, decide_eq_true_eq, Bool.not_eq_true'] at passed
  obtain ⟨⟨⟨⟨⟨enabled, completed⟩, dispatching⟩, found⟩, first⟩, noActions⟩ := passed
  have stepped := step_eq_some.mpr ⟨enabled, rfl⟩
  have finished : IsFinishedBy (m.perform .continueDispatch) 0 completedState :=
    isFinishedBy_of_noActions noActions rfl rfl
  cases known : m.orderStateCaches[0]? with
  | none => simp [known] at first
  | some cache =>
      exact ⟨m, _, run, stepped, finished,
        (noTrace_iff run dispatching rfl found known stepped completed finished).mpr
          (by simpa [known] using first)⟩

/-- The cache of an order whose horizon is canceled stays, so that the order
cannot be assigned again. -/
theorem trace_of_canceledHorizon :
    ∃ m next,
      MasterRun [.assignOrder vehicle (edgeOrder false) 0, .orderPublished 0 true,
        .state vehicle horizonState, .continueDispatch,
        .initiateInstantActions vehicle [cancelOrder] 1,
        .instantActionsPublished
          { agvId := vehicle, actionStateCaches := 0, actions := [cancelOrder], instantActionsRef := 1 }
          true,
        .state vehicle canceledState] m ∧
      m.step .continueDispatch = some next ∧ next.crashed = false ∧
      IsFinishedBy next 0 canceledState ∧
      next.getOrderStateCache vehicle "order" 0 = some 0 ∧
      next.assignOrder vehicle (edgeOrder false) 2 = next := by
  obtain ⟨m, run, passed⟩ := MasterRun.exists_of_execute
    [.assignOrder vehicle (edgeOrder false) 0, .orderPublished 0 true,
      .state vehicle horizonState, .continueDispatch,
      .initiateInstantActions vehicle [cancelOrder] 1,
      .instantActionsPublished
        { agvId := vehicle, actionStateCaches := 0, actions := [cancelOrder], instantActionsRef := 1 }
        true,
      .state vehicle canceledState]
    (fun m => m.enabled .continueDispatch && !(m.perform .continueDispatch).crashed &&
      ((m.perform .continueDispatch).orderStateCaches[0]?).any (·.mappedActions.isEmpty) &&
      decide ((m.perform .continueDispatch).getOrderStateCache vehicle "order" 0 = some 0))
    (by decide)
  simp only [Bool.and_eq_true, decide_eq_true_eq, Bool.not_eq_true'] at passed
  obtain ⟨⟨⟨enabled, completed⟩, noActions⟩, found⟩ := passed
  refine ⟨m, _, run, step_eq_some.mpr ⟨enabled, rfl⟩, completed,
    isFinishedBy_of_noActions noActions rfl rfl, found, ?_⟩
  unfold assignOrder
  simp [edgeOrder, found]

end MasterController

end Vda5050
