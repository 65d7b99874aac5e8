import Vda5050.MasterController.Machine
import Vda5050.Library.EntryList

/-!
# The maps of order caches

Which caches are found under which ids after the steps of the master
controller, and that a cache that has been removed is never found again.
-/

set_option autoImplicit false

namespace Vda5050

/-! ## Maps -/

section Maps

open Library (lookup_put lookup_filter_ne)

variable {Key Value : Type} [BEq Key] [LawfulBEq Key] [DecidableEq Key]

theorem lookup_setEntry (key other : Key) (value : Value) (entries : List (Key × Value)) :
    (setEntry key value entries).lookup other =
      if other = key then some value else entries.lookup other :=
  lookup_put key other value entries

theorem lookup_deleteEntry (key other : Key) (entries : List (Key × Value)) :
    (MasterController.deleteEntry key entries).lookup other =
      if other = key then none else entries.lookup other :=
  lookup_filter_ne key other entries

end Maps

namespace MasterController

variable (m : MasterController)

/-! ## Lookups -/

/-- Only the map of orders changes. -/
private theorem deleteOrderStateCache_eq (agvId : AgvId) (orderId : String) (orderUpdateId : Nat) :
    ∃ orders, m.deleteOrderStateCache agvId orderId orderUpdateId =
      { m with currentOrders := orders } := by
  unfold deleteOrderStateCache
  split
  · exact ⟨m.currentOrders, rfl⟩
  · split
    · exact ⟨m.currentOrders, rfl⟩
    · exact ⟨_, rfl⟩

/-- Only the caches of orders and their map change. -/
theorem removeOrderStateCache_eq (ref : Nat) (deleteLastCache : Bool) :
    ∃ caches orders, m.removeOrderStateCache ref deleteLastCache =
      { m with orderStateCaches := caches, currentOrders := orders } := by
  unfold removeOrderStateCache
  split
  · exact ⟨m.orderStateCaches, m.currentOrders, rfl⟩
  · dsimp only
    split
    · obtain ⟨orders, deleted⟩ := deleteOrderStateCache_eq _ _ _ _
      rw [deleted]
      exact ⟨_, orders, rfl⟩
    · obtain ⟨orders, deleted⟩ := deleteOrderStateCache_eq _ _ _ _
      rw [deleted]
      exact ⟨_, orders, rfl⟩

@[simp] theorem deleteOrderStateCache_orderStateCaches (agvId : AgvId) (orderId : String)
    (orderUpdateId : Nat) :
    (m.deleteOrderStateCache agvId orderId orderUpdateId).orderStateCaches =
      m.orderStateCaches := by
  obtain ⟨orders, deleted⟩ := m.deleteOrderStateCache_eq agvId orderId orderUpdateId
  rw [deleted]

theorem getOrderStateCache_delete (agvId other : AgvId) (orderId otherId : String)
    (orderUpdateId otherUpdateId : Nat) :
    (m.deleteOrderStateCache agvId orderId orderUpdateId).getOrderStateCache other otherId
        otherUpdateId =
      if (other, otherId, otherUpdateId) = (agvId, orderId, orderUpdateId) then none
      else m.getOrderStateCache other otherId otherUpdateId := by
  unfold deleteOrderStateCache getOrderStateCache
  split
  · next absent =>
    split
    · next same =>
      obtain ⟨rfl, -⟩ := Prod.mk.inj same
      simp [absent]
    · rfl
  · next orders found =>
    split
    · next absent =>
      split
      · next same =>
        simp only [Prod.mk.injEq] at same
        obtain ⟨rfl, rfl, rfl⟩ := same
        simp [found, absent]
      · rfl
    · next ref present =>
      by_cases same : other = agvId
      · subst same
        simp only
        split
        · next empty =>
          have removed := lookup_deleteEntry (orderId, orderUpdateId) (otherId, otherUpdateId)
            orders.caches
          rw [List.isEmpty_iff.mp empty] at removed
          simp only [lookup_deleteEntry, if_true, Option.bind_none, found, Option.bind_some]
          by_cases ids : (otherId, otherUpdateId) = (orderId, orderUpdateId)
          · simp [Prod.mk.inj ids]
          · rw [if_neg ids] at removed
            rw [if_neg fun same => ids (Prod.mk.inj same).2, ← removed, List.lookup_nil]
        · simp only [lookup_setEntry, if_true, Option.bind_some, lookup_deleteEntry, found]
          simp [Prod.mk.injEq]
      · simp only
        split <;> simp [lookup_deleteEntry, lookup_setEntry, same]

private theorem getOrderStateCache_add (agvId other : AgvId) (order : Order) (eventHandler : Nat)
    (otherId : String) (otherUpdateId : Nat) :
    (m.addOrderStateCache agvId order eventHandler).getOrderStateCache other otherId
        otherUpdateId =
      if (other, otherId, otherUpdateId) = (agvId, order.orderId, order.orderUpdateId) then
        some m.orderStateCaches.length
      else m.getOrderStateCache other otherId otherUpdateId := by
  unfold addOrderStateCache getOrderStateCache
  simp only [lookup_setEntry]
  by_cases same : other = agvId
  · subst same
    simp only [if_true, Option.bind_some, lookup_setEntry, Prod.mk.injEq, true_and]
    split
    · rfl
    · cases m.currentOrders.lookup other <;> simp
  · simp [same]

private theorem getLastAssignedOrderStateCache_delete (agvId other : AgvId) (orderId : String)
    (orderUpdateId ref : Nat) (assigned : (m.deleteOrderStateCache agvId orderId
      orderUpdateId).getLastAssignedOrderStateCache other = some ref) :
    m.getLastAssignedOrderStateCache other = some ref := by
  unfold deleteOrderStateCache getLastAssignedOrderStateCache at *
  split at assigned
  · exact assigned
  · next orders found =>
    split at assigned
    · exact assigned
    · by_cases same : other = agvId
      · subst same
        simp only at assigned
        split at assigned
        · simp [lookup_deleteEntry] at assigned
        · simpa [lookup_setEntry, found] using assigned
      · simp only at assigned
        split at assigned
        · simpa [lookup_deleteEntry, same] using assigned
        · simpa [lookup_setEntry, same] using assigned

private theorem getLastAssignedOrderStateCache_add (agvId other : AgvId) (order : Order)
    (eventHandler : Nat) :
    (m.addOrderStateCache agvId order eventHandler).getLastAssignedOrderStateCache other =
      if other = agvId then some m.orderStateCaches.length
      else m.getLastAssignedOrderStateCache other := by
  unfold addOrderStateCache getLastAssignedOrderStateCache
  simp only [lookup_setEntry]
  split <;> rfl

/-! ## The books on caches -/

/-- Caches are found under their own ids, and refer to caches created before. -/
structure CacheBooks (m : MasterController) : Prop where
  keyed : ∀ agvId orderId orderUpdateId ref,
    m.getOrderStateCache agvId orderId orderUpdateId = some ref →
      ∃ cache, m.orderStateCaches[ref]? = some cache ∧ cache.agvId = agvId ∧
        cache.order.orderId = orderId ∧ cache.order.orderUpdateId = orderUpdateId
  older : ∀ ref (cache : OrderStateCache) last, m.orderStateCaches[ref]? = some cache →
    cache.lastCache = some last → last < ref
  assigned : ∀ agvId ref, m.getLastAssignedOrderStateCache agvId = some ref →
    ref < m.orderStateCaches.length

theorem CacheBooks.initial : CacheBooks {} where
  keyed := by simp [getOrderStateCache]
  older := by simp
  assigned := by simp [getLastAssignedOrderStateCache]

/-- Only new caches are added to the maps, under ids `assigned` at that time. -/
structure CachesMove (assigned : AgvId → String → Nat → Prop) (m next : MasterController) :
    Prop where
  books : CacheBooks m → CacheBooks next
  length : m.orderStateCaches.length ≤ next.orderStateCaches.length
  found : ∀ agvId orderId orderUpdateId ref,
    next.getOrderStateCache agvId orderId orderUpdateId = some ref →
      m.getOrderStateCache agvId orderId orderUpdateId = some ref ∨
        m.orderStateCaches.length ≤ ref ∧ assigned agvId orderId orderUpdateId

variable (assigned : AgvId → String → Nat → Prop)

namespace CachesMove

variable {m} {middle next : MasterController} {assigned}

theorem of_same (caches : next.orderStateCaches = m.orderStateCaches)
    (current : next.currentOrders = m.currentOrders) : CachesMove assigned m next where
  books books :=
    { keyed := by
        unfold getOrderStateCache
        rw [caches, current]
        exact books.keyed
      older := by
        rw [caches]
        exact books.older
      assigned := by
        unfold getLastAssignedOrderStateCache
        rw [caches, current]
        exact books.assigned }
  length := by rw [caches]
  found := by
    unfold getOrderStateCache
    rw [current]
    exact fun _ _ _ _ => .inl

theorem refl (m : MasterController) : CachesMove assigned m m := of_same rfl rfl

theorem trans (first : CachesMove assigned m middle) (second : CachesMove assigned middle next) :
    CachesMove assigned m next where
  books books := second.books (first.books books)
  length := first.length.trans second.length
  found agvId orderId orderUpdateId ref found := by
    rcases second.found agvId orderId orderUpdateId ref found with old | ⟨new, given⟩
    · exact first.found agvId orderId orderUpdateId ref old
    · exact .inr ⟨first.length.trans new, given⟩

theorem after_same (later : CachesMove assigned middle next)
    (caches : middle.orderStateCaches = m.orderStateCaches)
    (current : middle.currentOrders = m.currentOrders) : CachesMove assigned m next :=
  trans (of_same caches current) later

theorem then_same (earlier : CachesMove assigned m middle)
    (caches : next.orderStateCaches = middle.orderStateCaches)
    (current : next.currentOrders = middle.currentOrders) : CachesMove assigned m next :=
  trans earlier (of_same caches current)

end CachesMove

/-- What of a cache never changes, except that it may forget its last cache. -/
structure SameCache (cache next : OrderStateCache) : Prop where
  agvId : next.agvId = cache.agvId
  order : next.order = cache.order
  lastCache : ∀ last, next.lastCache = some last → cache.lastCache = some last

theorem updateCache_move {ref : Nat} {cache next : OrderStateCache}
    (known : m.orderStateCaches[ref]? = some cache) (same : SameCache cache next) :
    CachesMove assigned m (m.updateCache ref next) where
  books books :=
    { keyed := by
        intro agvId orderId orderUpdateId other found
        obtain ⟨original, present, ids⟩ := books.keyed agvId orderId orderUpdateId other found
        by_cases equal : ref = other
        · subst equal
          obtain rfl := Option.some.inj (known.symm.trans present)
          refine ⟨next, ?_, by rw [same.agvId]; exact ids.1, by rw [same.order]; exact ids.2⟩
          simp [updateCache, (List.getElem?_eq_some_iff.mp known).1]
        · exact ⟨original, by simpa [updateCache, List.getElem?_set, equal] using present, ids⟩
      older := by
        intro other cache' last present points
        by_cases equal : ref = other
        · subst equal
          have found : cache' = next := by
            have := present
            simp [updateCache, (List.getElem?_eq_some_iff.mp known).1] at this
            exact this.symm
          subst found
          exact books.older ref cache last known (same.lastCache last points)
        · refine books.older other cache' last ?_ points
          simpa [updateCache, List.getElem?_set, equal] using present
      assigned := fun agvId other assigned => by
        simpa [updateCache] using books.assigned agvId other assigned }
  length := by simp [updateCache]
  found := fun _ _ _ _ => .inl

private theorem deleteOrderStateCache_move (agvId : AgvId) (orderId : String)
    (orderUpdateId : Nat) :
    CachesMove assigned m (m.deleteOrderStateCache agvId orderId orderUpdateId) where
  books books :=
    { keyed := by
        intro other otherId otherUpdateId ref found
        rw [getOrderStateCache_delete] at found
        rw [deleteOrderStateCache_orderStateCaches]
        split at found
        · cases found
        · exact books.keyed other otherId otherUpdateId ref found
      older := by
        rw [deleteOrderStateCache_orderStateCaches]
        exact books.older
      assigned := by
        intro other ref assigned
        rw [deleteOrderStateCache_orderStateCaches]
        exact books.assigned other ref
          (getLastAssignedOrderStateCache_delete m agvId other orderId orderUpdateId ref assigned) }
  length := by rw [deleteOrderStateCache_orderStateCaches]
  found other otherId otherUpdateId ref found := by
    rw [getOrderStateCache_delete] at found
    split at found
    · cases found
    · exact .inl found

private theorem removeOrderStateCache_move (ref : Nat) (deleteLastCache : Bool) :
    CachesMove assigned m (m.removeOrderStateCache ref deleteLastCache) := by
  unfold removeOrderStateCache
  split
  · exact .refl m
  · next cache known =>
    refine CachesMove.trans ?_ (deleteOrderStateCache_move _ _ _ _ _)
    split
    · exact updateCache_move m assigned known ⟨rfl, rfl, nofun⟩
    · exact .refl m

private theorem addOrderStateCache_move (agvId : AgvId) (order : Order) (eventHandler : Nat) :
    CachesMove
      (fun other orderId orderUpdateId =>
        (other, orderId, orderUpdateId) = (agvId, order.orderId, order.orderUpdateId))
      m (m.addOrderStateCache agvId order eventHandler) where
  books books :=
    { keyed := by
        intro other otherId otherUpdateId ref found
        rw [getOrderStateCache_add] at found
        split at found
        · next same =>
          simp only [Prod.mk.injEq] at same
          obtain ⟨rfl, rfl, rfl⟩ := same
          obtain rfl := Option.some.inj found
          exact ⟨_, List.getElem?_concat_length, rfl, rfl, rfl⟩
        · obtain ⟨cache, present, ids⟩ := books.keyed other otherId otherUpdateId ref found
          refine ⟨cache, ?_, ids⟩
          unfold addOrderStateCache
          rw [List.getElem?_append_left (List.getElem?_eq_some_iff.mp present).1]
          exact present
      older := by
        intro ref cache last present points
        unfold addOrderStateCache at present
        rcases Nat.lt_or_ge ref m.orderStateCaches.length with old | new
        · rw [List.getElem?_append_left old] at present
          exact books.older ref cache last present points
        · rw [List.getElem?_append_right new] at present
          obtain ⟨rfl, rfl⟩ : ref = m.orderStateCaches.length ∧ _ = cache := by
            have bound := (List.getElem?_eq_some_iff.mp present).1
            have same : ref = m.orderStateCaches.length := by simp at bound; omega
            subst same
            simpa using present
          exact books.assigned agvId last points
      assigned := by
        intro other ref assigned
        rw [getLastAssignedOrderStateCache_add] at assigned
        have grown : (m.addOrderStateCache agvId order eventHandler).orderStateCaches.length =
            m.orderStateCaches.length + 1 := by simp [addOrderStateCache]
        rw [grown]
        split at assigned
        · obtain rfl := Option.some.inj assigned
          exact Nat.lt_succ_self _
        · exact Nat.lt_succ_of_lt (books.assigned other ref assigned) }
  length := by simp [addOrderStateCache]
  found other otherId otherUpdateId ref found := by
    rw [getOrderStateCache_add] at found
    split at found
    · next same => exact .inr ⟨Nat.le_of_eq (Option.some.inj found), same⟩
    · exact .inl found

/-! ## Caches while events are reported -/

/-- What reporting the events of a State leaves unchanged in the cache of an order. -/
structure Tracked (cache next : OrderStateCache) : Prop where
  agvId : next.agvId = cache.agvId
  order : next.order = cache.order
  isOrderProcessedHandlerInvoked :
    next.isOrderProcessedHandlerInvoked = cache.isOrderProcessedHandlerInvoked
  lastCache : next.lastCache = cache.lastCache
  combinedOrder : next.combinedOrder = cache.combinedOrder
  mappedActions : next.mappedActions = cache.mappedActions

namespace Tracked

theorem refl (cache : OrderStateCache) : Tracked cache cache := ⟨rfl, rfl, rfl, rfl, rfl, rfl⟩

theorem trans {cache middle next : OrderStateCache} (first : Tracked cache middle)
    (second : Tracked middle next) : Tracked cache next where
  agvId := second.agvId.trans first.agvId
  order := second.order.trans first.order
  isOrderProcessedHandlerInvoked :=
    second.isOrderProcessedHandlerInvoked.trans first.isOrderProcessedHandlerInvoked
  lastCache := second.lastCache.trans first.lastCache
  combinedOrder := second.combinedOrder.trans first.combinedOrder
  mappedActions := second.mappedActions.trans first.mappedActions

theorem same {cache next : OrderStateCache} (tracked : Tracked cache next) :
    SameCache cache next :=
  ⟨tracked.agvId, tracked.order, fun _ points => tracked.lastCache ▸ points⟩

end Tracked

private theorem updateActionState_tracked (ref : Nat) (state : State) (d : Dispatch)
    (actionState : ActionState) :
    Tracked d.cache (updateActionState ref state d actionState).cache := by
  unfold updateActionState
  split
  · exact .refl _
  · simp only
    split
    · exact .refl _
    · exact ⟨rfl, rfl, rfl, rfl, rfl, rfl⟩

theorem foldl_updateActionState_tracked (ref : Nat) (state : State)
    (actionStates : List ActionState) (d : Dispatch) :
    Tracked d.cache (actionStates.foldl (updateActionState ref state) d).cache := by
  induction actionStates generalizing d with
  | nil => exact .refl _
  | cons actionState actionStates ih =>
      exact .trans (updateActionState_tracked ref state d actionState) (ih _)

private theorem updateEdgeStateChanges_tracked (ref : Nat) (edge : Edge)
    (startNode endNode : Option Node) (state : State) (d : Dispatch) :
    Tracked d.cache (updateEdgeStateChanges ref edge startNode endNode state d).cache := by
  unfold updateEdgeStateChanges
  simp only
  split
  · exact ⟨rfl, rfl, rfl, rfl, rfl, rfl⟩
  · split
    · exact .refl _
    · exact ⟨rfl, rfl, rfl, rfl, rfl, rfl⟩

private theorem processEdgeEvents_tracked (isCanceling : Bool) (ref : Nat) (state : State)
    (lastNode : Node) (d : Dispatch) :
    Tracked d.cache (processEdgeEvents isCanceling ref state lastNode d).cache := by
  unfold processEdgeEvents
  split
  · exact .refl _
  · split
    · exact .refl _
    · next nextEdge _ =>
      simp only
      split
      · split
        · exact updateEdgeStateChanges_tracked ..
        · exact .refl _
      · split
        · exact .refl _
        · exact (updateEdgeStateChanges_tracked ..).trans ⟨rfl, rfl, rfl, rfl, rfl, rfl⟩

theorem nodeTraversed_tracked (isCanceling : Bool) (ref : Nat) (state : State) (nextNode : Node)
    (d : Dispatch) : Tracked d.cache (nodeTraversed isCanceling ref state nextNode d).cache := by
  unfold nodeTraversed
  simp only
  refine Tracked.trans ?_ (processEdgeEvents_tracked ..)
  exact ⟨rfl, rfl, rfl, rfl, rfl, rfl⟩

theorem updateTraversal_tracked (isCanceling : Bool) (ref : Nat) (state : State) (d : Dispatch) :
    Tracked d.cache (updateTraversal isCanceling ref state d).cache := by
  unfold updateTraversal
  split
  · exact .refl _
  · exact processEdgeEvents_tracked ..

/-! ## States -/

/-- What stitching keeps of the cache of an order. -/
theorem stitch_same (cache lastCache : OrderStateCache) (firstNode baseEnd : Node) :
    SameCache cache (cache.stitch lastCache firstNode baseEnd) :=
  ⟨rfl, rfl, fun _ points => points⟩

theorem findActiveCache_spec {agvId : AgvId} {fuel : Nat} {start : Option Nat} {ref : Nat}
    (active : m.findActiveCache agvId fuel start = some ref) :
    ∃ cache, m.orderStateCaches[ref]? = some cache ∧
      m.getOrderStateCache agvId cache.order.orderId cache.order.orderUpdateId = some ref := by
  induction fuel generalizing start with
  | zero => simp [findActiveCache] at active
  | succ fuel ih =>
      cases start with
      | none => simp [findActiveCache] at active
      | some start =>
          unfold findActiveCache at active
          cases present : m.orderStateCaches[start]? with
          | none => simp [present] at active
          | some cache =>
              simp only [present] at active
              split at active
              · next current =>
                obtain rfl := Option.some.inj active
                exact ⟨cache, present, current⟩
              · exact ih active

private theorem findActiveCache_le (books : CacheBooks m) {agvId : AgvId} {fuel start ref : Nat}
    (active : m.findActiveCache agvId fuel (some start) = some ref) : ref ≤ start := by
  induction fuel generalizing start with
  | zero => simp [findActiveCache] at active
  | succ fuel ih =>
      unfold findActiveCache at active
      cases present : m.orderStateCaches[start]? with
      | none => simp [present] at active
      | some cache =>
          simp only [present] at active
          split at active
          · exact Nat.le_of_eq (Option.some.inj active).symm
          · cases points : cache.lastCache with
            | none =>
                rw [points] at active
                cases fuel <;> simp [findActiveCache] at active
            | some last =>
                rw [points] at active
                exact (ih active).trans (books.older start cache last present points).le

/-- An order is stitched onto one that was assigned before it. -/
theorem getLastActiveOrderStateCache_lt (books : CacheBooks m) {ref lastRef : Nat}
    {cache : OrderStateCache} (known : m.orderStateCaches[ref]? = some cache)
    (active : m.getLastActiveOrderStateCache cache = some lastRef) : lastRef < ref := by
  unfold getLastActiveOrderStateCache at active
  cases points : cache.lastCache with
  | none =>
      rw [points] at active
      cases length : m.orderStateCaches.length <;> rw [length] at active <;>
        simp [findActiveCache] at active
  | some last =>
      rw [points] at active
      exact (findActiveCache_le m books active).trans_lt (books.older ref cache last known points)

theorem updateCache_getElem {ref : Nat} {cache : OrderStateCache} (next : OrderStateCache)
    (known : m.orderStateCaches[ref]? = some cache) :
    (m.updateCache ref next).orderStateCaches[ref]? = some next := by
  simp [updateCache, (List.getElem?_eq_some_iff.mp known).1]

theorem stitchOntoActiveOrder_move {ref : Nat} {cache : OrderStateCache}
    {stitched : MasterController × OrderStateCache}
    (known : m.orderStateCaches[ref]? = some cache)
    (succeeded : m.stitchOntoActiveOrder ref cache = some stitched) :
    CachesMove assigned m stitched.1 := by
  unfold stitchOntoActiveOrder at succeeded
  split at succeeded
  · obtain rfl := Option.some.inj succeeded
    exact .refl m
  · split at succeeded
    · obtain rfl := Option.some.inj succeeded
      exact .refl m
    · split at succeeded
      · obtain rfl := Option.some.inj succeeded
        exact .trans (updateCache_move m assigned known (stitch_same ..))
          (removeOrderStateCache_move _ _ _ _)
      · cases succeeded

theorem reportOrderProcessed_move {ref : Nat} {cache : OrderStateCache}
    (known : m.orderStateCaches[ref]? = some cache) (state : State) :
    CachesMove assigned m (m.reportOrderProcessed ref cache state) := by
  unfold reportOrderProcessed
  simp only
  split
  · have updated : CachesMove assigned m
        (m.updateCache ref { cache with isOrderProcessedHandlerInvoked := true }) :=
      updateCache_move m assigned known ⟨rfl, rfl, fun _ points => points⟩
    split
    · exact updated.then_same rfl rfl
    · exact (updated.trans (removeOrderStateCache_move _ _ _ _)).then_same rfl rfl
  · exact .refl m

/-- An order keeps its cache while it is stitched onto an active order. -/
theorem stitchOntoActiveOrder_known (books : CacheBooks m) {ref : Nat} {cache : OrderStateCache}
    {stitched : MasterController × OrderStateCache}
    (known : m.orderStateCaches[ref]? = some cache)
    (succeeded : m.stitchOntoActiveOrder ref cache = some stitched) :
    stitched.1.orderStateCaches[ref]? = some stitched.2 := by
  unfold stitchOntoActiveOrder at succeeded
  split at succeeded
  · obtain rfl := Option.some.inj succeeded
    exact known
  · next lastRef active =>
    split at succeeded
    · obtain rfl := Option.some.inj succeeded
      exact known
    · next lastCache present =>
      split at succeeded
      · next firstNode baseEnd _ _ =>
        obtain rfl := Option.some.inj succeeded
        have different : lastRef ≠ ref :=
          (getLastActiveOrderStateCache_lt m books known active).ne
        have updated := updateCache_getElem m (cache.stitch lastCache firstNode baseEnd) known
        unfold removeOrderStateCache
        split
        · exact updated
        · simp only [if_true, deleteOrderStateCache_orderStateCaches]
          unfold updateCache at updated ⊢
          rw [List.getElem?_set_ne different]
          exact updated
      · cases succeeded

/-- How the dispatch of a State to the cache of an order ends. -/
theorem dispatchOrderState_spec {ref : Nat} {cache : OrderStateCache} (state : State)
    (known : m.orderStateCaches[ref]? = some cache) :
    m.dispatchOrderState state ref = m.throwTypeError ∨
      ∃ stitched tracked notifications,
        m.stitchOntoActiveOrder ref cache = some stitched ∧ Tracked stitched.2 tracked ∧
          (m.dispatchOrderState state ref =
              { stitched.1.updateCache ref tracked with
                notifications := notifications }.throwTypeError ∨
            m.dispatchOrderState state ref =
              { stitched.1.updateCache ref tracked with
                notifications := notifications }.reportOrderProcessed ref tracked state) := by
  unfold dispatchOrderState
  simp only [known]
  cases succeeded : m.stitchOntoActiveOrder ref cache with
  | none => exact .inl rfl
  | some stitched =>
      refine .inr ?_
      simp only
      have actions := (foldl_updateActionState_tracked ref state state.actionStates
        { cache := stitched.2 }).trans (updateTraversal_tracked
          (stitched.1.isOrderCanceling stitched.2.agvId state [.running, .finished]) ref state _)
      split
      · exact ⟨stitched, _, _, rfl, actions, .inl rfl⟩
      · next nextNode _ =>
        cases nextNode with
        | none => exact ⟨stitched, _, _, rfl, actions, .inr rfl⟩
        | some nextNode =>
            exact ⟨stitched, _, _, rfl, actions.trans (nodeTraversed_tracked ..), .inr rfl⟩

theorem dispatchOrderState_move (books : CacheBooks m) (state : State) (ref : Nat) :
    CachesMove assigned m (m.dispatchOrderState state ref) := by
  cases known : m.orderStateCaches[ref]? with
  | none =>
      unfold dispatchOrderState
      rw [known]
      exact .refl m
  | some cache =>
      rcases dispatchOrderState_spec m state known with
        ended | ⟨stitched, tracked, notifications, succeeded, same, ended⟩
      · rw [ended]
        exact .of_same rfl rfl
      · have stitching := stitchOntoActiveOrder_move m assigned known succeeded
        have present := stitchOntoActiveOrder_known m books known succeeded
        have updating := updateCache_move stitched.1 assigned present same.same
        have middle : CachesMove assigned m
            { stitched.1.updateCache ref tracked with notifications := notifications } :=
          (stitching.trans updating).then_same rfl rfl
        rcases ended with ended | ended
        · rw [ended]
          exact middle.then_same rfl rfl
        · rw [ended]
          refine middle.trans (reportOrderProcessed_move _ assigned ?_ state)
          exact updateCache_getElem stitched.1 tracked present

/-! ## Steps -/

theorem dispatchError_move (agvId : AgvId) (error : Error) :
    CachesMove assigned m (m.dispatchError agvId error) := by
  unfold dispatchError
  split
  · exact .refl m
  · exact (removeOrderStateCache_move m assigned _ _).then_same rfl rfl

/-- Instant actions do not touch the caches of orders. -/
private theorem removeInstantActionStateCache_orders (cache : InstantActionStateCache) :
    (m.removeInstantActionStateCache cache).orderStateCaches = m.orderStateCaches ∧
      (m.removeInstantActionStateCache cache).currentOrders = m.currentOrders := by
  unfold removeInstantActionStateCache
  split
  · exact ⟨rfl, rfl⟩
  · simp only
    split <;> exact ⟨rfl, rfl⟩

private theorem dispatchInstantAction_orders (ref : Nat) (state : State)
    (entry : String × InstantActionStateCache) :
    (dispatchInstantAction ref state m entry).orderStateCaches = m.orderStateCaches ∧
      (dispatchInstantAction ref state m entry).currentOrders = m.currentOrders := by
  unfold dispatchInstantAction
  split
  · unfold dispatchInstantActionState
    simp only
    split
    · exact ⟨rfl, rfl⟩
    · split
      · exact removeInstantActionStateCache_orders _ _
      · exact ⟨rfl, rfl⟩
  · split
    · exact removeInstantActionStateCache_orders m _
    · exact ⟨rfl, rfl⟩

theorem dispatchInstantActions_orders (agvId : AgvId) (state : State) :
    (m.dispatchInstantActions agvId state).orderStateCaches = m.orderStateCaches ∧
      (m.dispatchInstantActions agvId state).currentOrders = m.currentOrders := by
  have folded : ∀ (ref : Nat) (entries : List (String × InstantActionStateCache))
      (m : MasterController),
      (entries.foldl (dispatchInstantAction ref state) m).orderStateCaches =
          m.orderStateCaches ∧
        (entries.foldl (dispatchInstantAction ref state) m).currentOrders =
          m.currentOrders := by
    intro ref entries
    induction entries with
    | nil => exact fun m => ⟨rfl, rfl⟩
    | cons entry entries ih =>
        intro m
        have first := dispatchInstantAction_orders m ref state entry
        have rest := ih (dispatchInstantAction ref state m entry)
        exact ⟨rest.1.trans first.1, rest.2.trans first.2⟩
  have updated : (m.updateInstantActionsValidationError (errorsOf state)).orderStateCaches =
        m.orderStateCaches ∧
      (m.updateInstantActionsValidationError (errorsOf state)).currentOrders =
        m.currentOrders := by
    unfold updateInstantActionsValidationError
    split
    · exact ⟨rfl, rfl⟩
    · simp only
      split <;> exact ⟨rfl, rfl⟩
  unfold dispatchInstantActions
  simp only
  split
  · exact updated
  · next ref _ =>
    have rest := folded ref
      (((m.updateInstantActionsValidationError (errorsOf state)).actionStateCaches[ref]?).getD [])
      (m.updateInstantActionsValidationError (errorsOf state))
    exact ⟨rest.1.trans updated.1, rest.2.trans updated.2⟩

theorem dispatchOrderAndActions_move (books : CacheBooks m) (agvId : AgvId) (state : State) :
    CachesMove assigned m (m.dispatchOrderAndActions agvId state) := by
  have order : CachesMove assigned m (m.dispatchCurrentOrder agvId state) := by
    unfold dispatchCurrentOrder
    split
    · exact .refl m
    · exact dispatchOrderState_move m assigned books state _
  unfold dispatchOrderAndActions
  simp only
  split
  · exact order
  · have same := dispatchInstantActions_orders (m.dispatchCurrentOrder agvId state) agvId state
    exact order.then_same same.1 same.2

theorem continueDispatch_move (books : CacheBooks m) :
    CachesMove assigned m m.continueDispatch := by
  unfold continueDispatch
  split
  · exact .refl m
  · split
    · exact (dispatchError_move _ assigned _ _).after_same rfl rfl
    · refine CachesMove.after_same (dispatchOrderAndActions_move _ assigned ?_ _ _) rfl rfl
      exact (CachesMove.of_same rfl rfl :
        CachesMove assigned m { m with dispatching := none }).books books

/-- The ids under which a step may add a cache. -/
def MasterEvent.Assigns (agvId : AgvId) (orderId : String) (orderUpdateId : Nat) :
    MasterEvent → Prop
  | .assignOrder target order _ =>
      (agvId, orderId, orderUpdateId) = (target, order.orderId, order.orderUpdateId)
  | _ => False

theorem perform_move (books : CacheBooks m) (event : MasterEvent) :
    CachesMove (fun agvId orderId orderUpdateId => event.Assigns agvId orderId orderUpdateId) m
      (m.perform event) := by
  cases event with
  | assignOrder agvId order eventHandler =>
      simp only [perform, assignOrder]
      split
      · exact .refl m
      · have added := addOrderStateCache_move m agvId
          (Config.allocateNodes m.orderStateCaches.length order) eventHandler
        exact CachesMove.then_same ⟨added.books, added.length, added.found⟩ rfl rfl
  | orderPublished ref succeeded =>
      simp only [perform, orderPublished]
      split
      · exact .of_same rfl rfl
      · exact (removeOrderStateCache_move _ _ _ _).after_same rfl rfl
  | initiateInstantActions agvId actions eventHandler =>
      simp only [perform, initiateInstantActions]
      split <;> exact .of_same rfl rfl
  | instantActionsPublished pending succeeded =>
      simp only [perform, instantActionsPublished]
      split
      · exact .of_same rfl rfl
      · split <;> exact .of_same rfl rfl
  | state agvId state => exact .of_same rfl rfl
  | continueDispatch => exact continueDispatch_move m _ books

theorem CacheBooks.of_run {events : List MasterEvent} {m : MasterController}
    (run : MasterRun events m) : CacheBooks m :=
  run.invariant CacheBooks CacheBooks.initial fun _ books _ stepped => by
    obtain ⟨-, rfl⟩ := step_eq_some.mp stepped
    exact (perform_move _ books _).books books

end MasterController

end Vda5050
