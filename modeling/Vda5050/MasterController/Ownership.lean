import Vda5050.MasterController.Tracking

/-!
# What belongs to which vehicle

Order caches, maps of instant actions and notifications belong to one vehicle
each. The dispatch of a State touches nothing that belongs to another vehicle.
-/

set_option autoImplicit false

namespace Vda5050

namespace MasterController

/-! ## Owners -/

/-- The owners of all order caches ever created. -/
def agvIds (m : MasterController) : List AgvId := m.orderStateCaches.map (·.agvId)

/-- The callback is one of an order or instant action assigned to the vehicle. -/
def Notification.isFor (agvIds : List AgvId) (agvId : AgvId) : Notification → Bool
  | .orderProcessed cache .. | .nodeTraversed cache .. | .edgeTraversing cache ..
  | .edgeTraversed cache .. | .actionStateChanged cache .. => agvIds[cache]? = some agvId
  | .instantActionStateChanged cache .. | .instantActionError cache _ => cache.agvId = agvId

/-- The callbacks delivered for a vehicle. -/
def callbacksFor (m : MasterController) (agvId : AgvId) : List Notification :=
  m.notifications.filter (·.isFor m.agvIds agvId)

/-- Everything kept for a vehicle belongs to this vehicle only. -/
structure Owned (m : MasterController) : Prop where
  current : ∀ {agvId orders}, m.currentOrders.lookup agvId = some orders →
    m.agvIds[orders.lastCache]? = some agvId ∧
      ∀ {key ref}, orders.caches.lookup key = some ref → m.agvIds[ref]? = some agvId
  lastCache : ∀ {ref last : Nat} {cache : OrderStateCache},
    m.orderStateCaches[ref]? = some cache → cache.lastCache = some last →
    m.agvIds[last]? = some cache.agvId
  actionMaps : ∀ {agvId other ref}, m.currentInstantActions.lookup agvId = some ref →
    m.currentInstantActions.lookup other = some ref → other = agvId
  bounded : ∀ {agvId ref}, m.currentInstantActions.lookup agvId = some ref →
    ref < m.actionStateCaches.length
  actions : ∀ {agvId ref}, m.currentInstantActions.lookup agvId = some ref →
    ∀ entry ∈ (m.actionStateCaches[ref]?).getD [], entry.2.agvId = agvId

theorem agvIds_getElem? (m : MasterController) (ref : Nat) :
    m.agvIds[ref]? = (m.orderStateCaches[ref]?).map (·.agvId) := by
  simp [agvIds]

/-! ## Local operations -/

/-- What an operation on behalf of a vehicle may change. -/
structure LocalTo (agvId : AgvId) (m next : MasterController) : Prop where
  agvIds : next.agvIds = m.agvIds
  otherOrders : ∀ other, other ≠ agvId →
    next.currentOrders.lookup other = m.currentOrders.lookup other
  orders : ∀ orders', next.currentOrders.lookup agvId = some orders' →
    ∃ orders, m.currentOrders.lookup agvId = some orders ∧
      orders'.lastCache = orders.lastCache ∧
      ∀ key ref, orders'.caches.lookup key = some ref → orders.caches.lookup key = some ref
  otherCaches : ∀ (ref : Nat) (cache : OrderStateCache),
    m.orderStateCaches[ref]? = some cache → cache.agvId ≠ agvId →
    next.orderStateCaches[ref]? = some cache
  lastCache : ∀ (ref last : Nat) (cache' : OrderStateCache),
    next.orderStateCaches[ref]? = some cache' → cache'.lastCache = some last →
    ∃ cache, m.orderStateCaches[ref]? = some cache ∧ cache.agvId = cache'.agvId ∧
      cache.lastCache = some last
  otherActions : ∀ other, other ≠ agvId →
    next.currentInstantActions.lookup other = m.currentInstantActions.lookup other
  actions : ∀ ref, next.currentInstantActions.lookup agvId = some ref →
    m.currentInstantActions.lookup agvId = some ref
  otherEntries : ∀ other ref, other ≠ agvId →
    m.currentInstantActions.lookup other = some ref →
    next.actionStateCaches[ref]? = m.actionStateCaches[ref]?
  entries : ∀ ref, next.currentInstantActions.lookup agvId = some ref →
    (∀ entry ∈ (m.actionStateCaches[ref]?).getD [], entry.2.agvId = agvId) →
    ∀ entry ∈ (next.actionStateCaches[ref]?).getD [], entry.2.agvId = agvId
  length : next.actionStateCaches.length = m.actionStateCaches.length
  currentInstantActionsRef : next.currentInstantActionsRef = m.currentInstantActionsRef
  notifications : ∃ added, next.notifications = m.notifications ++ added ∧
    ∀ notification ∈ added, notification.isFor m.agvIds agvId = true

namespace LocalTo

variable {agvId : AgvId} {m middle next : MasterController}

private theorem of_notified (orderStateCaches : next.orderStateCaches = m.orderStateCaches)
    (currentOrders : next.currentOrders = m.currentOrders)
    (currentInstantActions : next.currentInstantActions = m.currentInstantActions)
    (actionStateCaches : next.actionStateCaches = m.actionStateCaches)
    (currentInstantActionsRef : next.currentInstantActionsRef = m.currentInstantActionsRef)
    {added : List Notification} (notifications : next.notifications = m.notifications ++ added)
    (fits : ∀ notification ∈ added, notification.isFor m.agvIds agvId = true) :
    LocalTo agvId m next where
  agvIds := by simp only [MasterController.agvIds, orderStateCaches]
  otherOrders := fun other _ => by rw [currentOrders]
  orders := by
    rw [currentOrders]
    exact fun orders found => ⟨orders, found, rfl, fun _ _ => id⟩
  otherCaches := by
    rw [orderStateCaches]
    exact fun ref cache known _ => known
  lastCache := by
    rw [orderStateCaches]
    exact fun ref last cache known points => ⟨cache, known, rfl, points⟩
  otherActions := fun other _ => by rw [currentInstantActions]
  actions := by
    rw [currentInstantActions]
    exact fun _ => id
  otherEntries := fun other ref _ _ => by rw [actionStateCaches]
  entries := by
    rw [actionStateCaches]
    exact fun _ _ => id
  length := by rw [actionStateCaches]
  currentInstantActionsRef := currentInstantActionsRef
  notifications := ⟨added, notifications, fits⟩

theorem of_same (orderStateCaches : next.orderStateCaches = m.orderStateCaches)
    (currentOrders : next.currentOrders = m.currentOrders)
    (currentInstantActions : next.currentInstantActions = m.currentInstantActions)
    (actionStateCaches : next.actionStateCaches = m.actionStateCaches)
    (currentInstantActionsRef : next.currentInstantActionsRef = m.currentInstantActionsRef)
    (notifications : next.notifications = m.notifications) : LocalTo agvId m next :=
  of_notified orderStateCaches currentOrders currentInstantActions actionStateCaches
    currentInstantActionsRef (notifications.trans (List.append_nil _).symm) (by simp)

theorem refl (agvId : AgvId) (m : MasterController) : LocalTo agvId m m :=
  of_same rfl rfl rfl rfl rfl rfl

theorem trans (first : LocalTo agvId m middle) (second : LocalTo agvId middle next) :
    LocalTo agvId m next where
  agvIds := second.agvIds.trans first.agvIds
  otherOrders := fun other different =>
    (second.otherOrders other different).trans (first.otherOrders other different)
  orders := by
    intro orders' found
    obtain ⟨orders, known, last, caches⟩ := second.orders orders' found
    obtain ⟨earlier, present, first, all⟩ := first.orders orders known
    exact ⟨earlier, present, last.trans first,
      fun key ref listed => all key ref (caches key ref listed)⟩
  otherCaches := fun ref cache known different =>
    second.otherCaches ref cache (first.otherCaches ref cache known different) different
  lastCache := by
    intro ref last cache' known points
    obtain ⟨cache, present, owner, pointed⟩ := second.lastCache ref last cache' known points
    obtain ⟨earlier, found, same, all⟩ := first.lastCache ref last cache present pointed
    exact ⟨earlier, found, same.trans owner, all⟩
  otherActions := fun other different =>
    (second.otherActions other different).trans (first.otherActions other different)
  actions := fun ref found => first.actions ref (second.actions ref found)
  otherEntries := by
    intro other ref different used
    have still := (first.otherActions other different).trans used
    exact (second.otherEntries other ref different still).trans
      (first.otherEntries other ref different used)
  entries := fun ref used owners =>
    second.entries ref used (first.entries ref (second.actions ref used) owners)
  length := second.length.trans first.length
  currentInstantActionsRef :=
    second.currentInstantActionsRef.trans first.currentInstantActionsRef
  notifications := by
    obtain ⟨added, appended, fits⟩ := first.notifications
    obtain ⟨more, extended, also⟩ := second.notifications
    refine ⟨added ++ more, by rw [extended, appended, List.append_assoc], ?_⟩
    intro notification member
    cases List.mem_append.mp member with
    | inl earlier => exact fits notification earlier
    | inr later =>
        rw [← first.agvIds]
        exact also notification later

/-- What belongs to one vehicle each still does. -/
theorem owned (moved : LocalTo agvId m next) (owned : Owned m) : Owned next where
  current := by
    intro other orders found
    rw [moved.agvIds]
    by_cases same : other = agvId
    · subst same
      obtain ⟨earlier, known, last, all⟩ := moved.orders orders found
      obtain ⟨lastOwner, owners⟩ := owned.current known
      exact ⟨last ▸ lastOwner, fun listed => owners (all _ _ listed)⟩
    · rw [moved.otherOrders other same] at found
      exact owned.current found
  lastCache := by
    intro ref last cache known points
    obtain ⟨earlier, present, owner, pointed⟩ := moved.lastCache ref last cache known points
    rw [moved.agvIds, ← owner]
    exact owned.lastCache present pointed
  actionMaps := by
    intro first second ref found also
    have earlier : m.currentInstantActions.lookup first = some ref := by
      by_cases same : first = agvId
      · subst same
        exact moved.actions ref found
      · rwa [moved.otherActions first same] at found
    have before : m.currentInstantActions.lookup second = some ref := by
      by_cases same : second = agvId
      · subst same
        exact moved.actions ref also
      · rwa [moved.otherActions second same] at also
    exact owned.actionMaps earlier before
  bounded := by
    intro other ref found
    rw [moved.length]
    by_cases same : other = agvId
    · subst same
      exact owned.bounded (moved.actions ref found)
    · rw [moved.otherActions other same] at found
      exact owned.bounded found
  actions := by
    intro other ref found
    by_cases same : other = agvId
    · subst same
      exact moved.entries ref found (owned.actions (moved.actions ref found))
    · rw [moved.otherActions other same] at found
      rw [moved.otherEntries other ref same found]
      exact owned.actions found

/-! ## Local steps of a dispatch -/

theorem updateCache {ref : Nat} {cache cache' : OrderStateCache}
    (known : m.orderStateCaches[ref]? = some cache) (owner : cache.agvId = agvId)
    (same : SameCache cache cache') : LocalTo agvId m (m.updateCache ref cache') := by
  have bound := (List.getElem?_eq_some_iff.mp known).1
  have here : (m.updateCache ref cache').orderStateCaches[ref]? = some cache' :=
    updateCache_getElem m cache' known
  have there : ∀ other, other ≠ ref →
      (m.updateCache ref cache').orderStateCaches[other]? = m.orderStateCaches[other]? :=
    fun other different => List.getElem?_set_ne different.symm
  refine { refl agvId m with
    agvIds := ?_, otherCaches := ?_, lastCache := ?_, notifications := ?_ }
  · apply List.ext_getElem?
    intro other
    rw [agvIds_getElem?, agvIds_getElem?]
    by_cases equal : other = ref
    · subst equal
      rw [here, known, Option.map_some, Option.map_some, same.agvId]
    · rw [there other equal]
  · intro other cache'' present different
    by_cases equal : other = ref
    · subst equal
      obtain rfl := Option.some.inj (known.symm.trans present)
      exact absurd owner different
    · rw [there other equal]
      exact present
  · intro other last cache'' present points
    by_cases equal : other = ref
    · subst equal
      obtain rfl := Option.some.inj (here.symm.trans present)
      exact ⟨cache, known, same.agvId.symm, same.lastCache last points⟩
    · rw [there other equal] at present
      exact ⟨cache'', present, rfl, points⟩
  · exact ⟨[], by simp [MasterController.updateCache], by simp⟩

theorem deleteOrderStateCache (m : MasterController) (agvId : AgvId) (orderId : String)
    (orderUpdateId : Nat) :
    LocalTo agvId m (m.deleteOrderStateCache agvId orderId orderUpdateId) := by
  unfold MasterController.deleteOrderStateCache
  split
  · exact refl agvId m
  · next orders found =>
    split
    · exact refl agvId m
    · refine { refl agvId m with
        otherOrders := ?_, orders := ?_, notifications := ⟨[], by simp, by simp⟩ }
      · intro other different
        dsimp only
        split
        · rw [lookup_deleteEntry, if_neg different]
        · rw [lookup_setEntry, if_neg different]
      · intro orders' kept
        dsimp only at kept
        split at kept
        · rw [lookup_deleteEntry, if_pos rfl] at kept
          cases kept
        · rw [lookup_setEntry, if_pos rfl, Option.some.injEq] at kept
          subst kept
          refine ⟨orders, found, rfl, ?_⟩
          intro key ref listed
          rw [lookup_deleteEntry] at listed
          split at listed
          · cases listed
          · exact listed

theorem removeOrderStateCache {ref : Nat} {cache : OrderStateCache}
    (known : m.orderStateCaches[ref]? = some cache) (owner : cache.agvId = agvId)
    (deleteLastCache : Bool) :
    LocalTo agvId m (m.removeOrderStateCache ref deleteLastCache) := by
  subst owner
  unfold MasterController.removeOrderStateCache
  rw [known]
  have forgotten : SameCache cache { cache with lastCache := none } := ⟨rfl, rfl, by simp⟩
  dsimp only
  split
  · exact (updateCache known rfl forgotten).trans (deleteOrderStateCache _ _ _ _)
  · exact deleteOrderStateCache _ _ _ _

theorem notify {notification : Notification}
    (fits : notification.isFor m.agvIds agvId = true) :
    LocalTo agvId m (m.notify notification) :=
  of_notified rfl rfl rfl rfl rfl rfl (by simpa using fits)

theorem setActionStateCaches {ref : Nat} {entries : List (String × InstantActionStateCache)}
    (unshared : ∀ other, other ≠ agvId → m.currentInstantActions.lookup other ≠ some ref)
    (owners : m.currentInstantActions.lookup agvId = some ref →
      ∀ entry ∈ entries, entry.2.agvId = agvId) :
    LocalTo agvId m (m.setActionStateCaches ref entries) := by
  refine { refl agvId m with otherEntries := ?_, entries := ?_, length := ?_ }
  · intro other another different used
    apply List.getElem?_set_ne
    rintro rfl
    exact unshared other different used
  · intro another used earlier entry member
    by_cases same : ref = another
    · subst same
      unfold MasterController.setActionStateCaches at member
      rw [List.getElem?_set_self'] at member
      cases known : m.actionStateCaches[ref]? with
      | none =>
          rw [known] at member
          cases member
      | some old =>
          rw [known] at member
          exact owners used entry member
    · unfold MasterController.setActionStateCaches at member
      rw [List.getElem?_set_ne same] at member
      exact earlier entry member
  · exact List.length_set

theorem deleteInstantActions (m : MasterController) (agvId : AgvId) :
    LocalTo agvId m
      { m with currentInstantActions := deleteEntry agvId m.currentInstantActions } := by
  refine { refl agvId m with
    otherActions := ?_, actions := ?_, entries := fun ref _ owners => owners }
  · intro other different
    rw [lookup_deleteEntry, if_neg different]
  · intro ref found
    rw [lookup_deleteEntry, if_pos rfl] at found
    cases found

theorem removeInstantActionStateCache (owned : Owned m) {cache : InstantActionStateCache}
    (owner : cache.agvId = agvId) :
    LocalTo agvId m (m.removeInstantActionStateCache cache) := by
  subst owner
  unfold MasterController.removeInstantActionStateCache
  cases used : m.currentInstantActions.lookup cache.agvId with
  | none => exact refl _ m
  | some ref =>
      have removed : LocalTo cache.agvId m (m.setActionStateCaches ref
          (deleteEntry cache.action.actionId ((m.actionStateCaches[ref]?).getD []))) :=
        setActionStateCaches (fun other different found =>
            different (owned.actionMaps used found)) fun _ entry member =>
          owned.actions used entry (List.mem_of_mem_filter member)
      dsimp only
      split
      · exact removed.trans (deleteInstantActions _ _)
      · exact removed

end LocalTo

/-! ## The dispatch of a State -/

variable {m : MasterController} {agvId : AgvId}

/-- A cache found under the ids of an order of a vehicle belongs to the vehicle. -/
theorem Owned.getOrderStateCache (owned : Owned m) {orderId : String} {orderUpdateId ref : Nat}
    (found : m.getOrderStateCache agvId orderId orderUpdateId = some ref) :
    ∃ cache, m.orderStateCaches[ref]? = some cache ∧ cache.agvId = agvId := by
  obtain ⟨orders, current, listed⟩ := Option.bind_eq_some_iff.mp found
  have owner := (owned.current current).2 listed
  rw [agvIds_getElem?] at owner
  exact Option.map_eq_some_iff.mp owner

private theorem isFor_of_orderCache {notification : Notification} {ref : Nat}
    {cache : OrderStateCache} (known : m.orderStateCaches[ref]? = some cache)
    (owner : cache.agvId = agvId) (about : notification.orderCache = some ref) :
    notification.isFor m.agvIds agvId = true := by
  have owner : m.agvIds[ref]? = some agvId := by
    rw [agvIds_getElem?, known, Option.map_some, owner]
  cases notification with
  | instantActionStateChanged | instantActionError => cases about
  | orderProcessed | nodeTraversed | edgeTraversing | edgeTraversed | actionStateChanged =>
      cases about
      simpa [Notification.isFor] using owner

/-- An error reported by a vehicle rejects an order of the vehicle. -/
theorem Owned.rejectedCache (owned : Owned m) {error : Error} {ref : Nat}
    (rejected : m.rejectedCache agvId error = some ref) :
    ∃ cache, m.orderStateCaches[ref]? = some cache ∧ cache.agvId = agvId := by
  obtain ⟨⟨orderId, orderUpdateId⟩, -, found⟩ := Option.bind_eq_some_iff.mp rejected
  dsimp only at found
  split at found
  · exact owned.getOrderStateCache found
  · cases found

theorem dispatchError_local (owned : Owned m) (agvId : AgvId) (error : Error) :
    LocalTo agvId m (m.dispatchError agvId error) := by
  unfold dispatchError
  cases rejected : m.rejectedCache agvId error with
  | none => exact .refl agvId m
  | some ref =>
      obtain ⟨cache, known, owner⟩ := owned.rejectedCache rejected
      have removed := LocalTo.removeOrderStateCache known owner false
      refine removed.trans (.notify ?_)
      subst owner
      rw [removed.agvIds]
      exact isFor_of_orderCache known rfl rfl

theorem stitchOntoActiveOrder_local (owned : Owned m) {ref : Nat} {cache : OrderStateCache}
    {stitched : MasterController × OrderStateCache}
    (known : m.orderStateCaches[ref]? = some cache)
    (succeeded : m.stitchOntoActiveOrder ref cache = some stitched) :
    LocalTo cache.agvId m stitched.1 := by
  unfold stitchOntoActiveOrder at succeeded
  cases active : m.getLastActiveOrderStateCache cache with
  | none =>
      rw [active, Option.some.injEq] at succeeded
      rw [← succeeded]
      exact .refl _ m
  | some lastRef =>
      obtain ⟨lastCache, present, current⟩ := findActiveCache_spec m active
      obtain ⟨owner, found, sameAgv⟩ := owned.getOrderStateCache current
      obtain rfl := Option.some.inj (present.symm.trans found)
      simp only [active, present] at succeeded
      split at succeeded
      · next firstNode baseEnd _ _ =>
        rw [Option.some.injEq] at succeeded
        rw [← succeeded]
        have updated : LocalTo cache.agvId m
            (m.updateCache ref (cache.stitch lastCache firstNode baseEnd)) :=
          LocalTo.updateCache known rfl (stitch_same ..)
        refine updated.trans ?_
        -- The cache stitched onto is another one of the same vehicle.
        have stillThere : ∃ last, (m.updateCache ref
            (cache.stitch lastCache firstNode baseEnd)).orderStateCaches[lastRef]? = some last ∧
              last.agvId = cache.agvId := by
          have owners := congrArg (·[lastRef]?) updated.agvIds
          rw [agvIds_getElem?, agvIds_getElem?, present, Option.map_some, sameAgv] at owners
          exact Option.map_eq_some_iff.mp owners
        obtain ⟨last, there, lastOwner⟩ := stillThere
        exact LocalTo.removeOrderStateCache there lastOwner true
      · cases succeeded

theorem reportOrderProcessed_local {ref : Nat} {cache : OrderStateCache}
    (known : m.orderStateCaches[ref]? = some cache) (state : State) :
    LocalTo cache.agvId m (m.reportOrderProcessed ref cache state) := by
  unfold reportOrderProcessed
  dsimp only
  split
  · have same : SameCache cache { cache with isOrderProcessedHandlerInvoked := true } :=
      ⟨rfl, rfl, fun _ => id⟩
    have updated := LocalTo.updateCache known rfl same
    have here := updateCache_getElem m { cache with isOrderProcessedHandlerInvoked := true } known
    split
    · refine updated.trans (.notify ?_)
      rw [updated.agvIds]
      exact isFor_of_orderCache known rfl rfl
    · have removed := LocalTo.removeOrderStateCache here rfl true
      refine updated.trans (removed.trans (.notify ?_))
      rw [removed.agvIds, updated.agvIds]
      exact isFor_of_orderCache known rfl rfl
  · exact .refl _ m

theorem tracked_local {ref : Nat} {cache : OrderStateCache} {d : Dispatch} {order : Order}
    {reached : Node → Prop} (known : m.orderStateCaches[ref]? = some cache)
    (same : Tracked cache d.cache) (about : d.IsAbout ref order reached) :
    LocalTo cache.agvId m (m.tracked ref d) := by
  have updated := LocalTo.updateCache known rfl same.same
  refine updated.trans (.of_notified rfl rfl rfl rfl rfl rfl ?_)
  intro notification member
  rw [updated.agvIds]
  exact isFor_of_orderCache known rfl (about.progress notification member).orderCache

private theorem dispatchOrderState_local (books : CacheBooks m) (owned : Owned m) {ref : Nat}
    {cache : OrderStateCache} (known : m.orderStateCaches[ref]? = some cache) (state : State) :
    LocalTo cache.agvId m (m.dispatchOrderState state ref) := by
  cases succeeded : m.stitchOntoActiveOrder ref cache with
  | none =>
      unfold dispatchOrderState
      simp only [known, succeeded]
      exact .of_same rfl rfl rfl rfl rfl rfl
  | some stitched =>
      have stitching := stitchOntoActiveOrder_local owned known succeeded
      have present := stitchOntoActiveOrder_known m books known succeeded
      have owner : stitched.2.agvId = cache.agvId := by
        have owners := congrArg (·[ref]?) stitching.agvIds
        simpa [agvIds_getElem?, known, present] using owners
      rw [dispatchOrderState_track m known succeeded]
      generalize stitched.1.isOrderCanceling stitched.2.agvId state [.running, .finished]
        = isCanceling
      have same := track_tracked isCanceling ref state stitched.2
      have tracking := tracked_local present same (track_isAbout isCanceling ref state stitched.2)
      rw [owner] at tracking
      dsimp only
      split
      · have here : (stitched.1.tracked ref (track isCanceling ref state
            stitched.2).1).orderStateCaches[ref]? =
              some (track isCanceling ref state stitched.2).1.cache :=
          updateCache_getElem stitched.1 _ present
        have reported := reportOrderProcessed_local here state
        rw [same.agvId, owner] at reported
        exact stitching.trans (tracking.trans reported)
      · exact stitching.trans (tracking.trans (.of_same rfl rfl rfl rfl rfl rfl))

theorem dispatchCurrentOrder_local (books : CacheBooks m) (owned : Owned m) (agvId : AgvId)
    (state : State) : LocalTo agvId m (m.dispatchCurrentOrder agvId state) := by
  unfold dispatchCurrentOrder
  cases found : m.getOrderStateCache agvId state.orderId state.orderUpdateId with
  | none => exact .refl agvId m
  | some ref =>
      obtain ⟨cache, known, owner⟩ := owned.getOrderStateCache found
      subst owner
      exact dispatchOrderState_local books owned known state

theorem updateInstantActionsValidationError_local (m : MasterController) (agvId : AgvId)
    (errors : List Error) : LocalTo agvId m (m.updateInstantActionsValidationError errors) := by
  unfold updateInstantActionsValidationError
  split
  · exact .refl agvId m
  · dsimp only
    split <;> exact .of_same rfl rfl rfl rfl rfl rfl

/-- The map is not that of another vehicle. -/
def Unshared (m : MasterController) (agvId : AgvId) (ref : Nat) : Prop :=
  ∀ other, other ≠ agvId → m.currentInstantActions.lookup other ≠ some ref

theorem Unshared.move {next : MasterController} {ref : Nat} (unshared : Unshared m agvId ref)
    (moved : LocalTo agvId m next) : Unshared next agvId ref := by
  intro other different
  rw [moved.otherActions other different]
  exact unshared other different

private theorem dispatchInstantAction_local (owned : Owned m) {ref : Nat}
    (unshared : Unshared m agvId ref) (state : State)
    {entry : String × InstantActionStateCache} (owner : entry.2.agvId = agvId) :
    LocalTo agvId m (dispatchInstantAction ref state m entry) := by
  unfold dispatchInstantAction
  cases state.actionStates.find? (·.actionId = entry.1) with
  | some actionState =>
      dsimp only
      unfold dispatchInstantActionState
      split
      · exact .refl agvId m
      · have set : LocalTo agvId m (m.setActionStateCaches ref
            (setEntry entry.2.action.actionId { entry.2 with lastActionState := some actionState }
              ((m.actionStateCaches[ref]?).getD []))) := by
          refine LocalTo.setActionStateCaches unshared fun used other member => ?_
          cases Library.mem_put member with
          | inl new =>
              rw [new]
              exact owner
          | inr old => exact owned.actions used other old
        dsimp only
        split
        · have same : ({ entry.2 with lastActionState := some actionState } :
              InstantActionStateCache).agvId = agvId := owner
          have removed := LocalTo.removeInstantActionStateCache (set.owned owned) same
          exact set.trans (removed.trans (.notify (by simpa [Notification.isFor] using owner)))
        · exact set.trans (.notify (by simpa [Notification.isFor] using owner))
  | none =>
      dsimp only
      split
      · have removed := LocalTo.removeInstantActionStateCache owned owner
        exact removed.trans (.notify (by simpa [Notification.isFor] using owner))
      · exact .refl agvId m

private theorem dispatchInstantActions_local (owned : Owned m) (agvId : AgvId) (state : State) :
    LocalTo agvId m (m.dispatchInstantActions agvId state) := by
  have updated := updateInstantActionsValidationError_local m agvId (errorsOf state)
  have stillOwned := updated.owned owned
  unfold dispatchInstantActions
  dsimp only
  generalize m.updateInstantActionsValidationError (errorsOf state) = next at updated stillOwned
  cases used : next.currentInstantActions.lookup agvId with
  | none => exact updated
  | some ref =>
      have unshared : Unshared next agvId ref := fun other different found =>
        different (stillOwned.actionMaps used found)
      have owners := stillOwned.actions used
      dsimp only
      generalize (next.actionStateCaches[ref]?).getD [] = entries at owners
      refine updated.trans ?_
      clear updated used
      induction entries generalizing next with
      | nil => exact .refl agvId next
      | cons entry entries ih =>
          have first := dispatchInstantAction_local stillOwned unshared state
            (owners entry List.mem_cons_self)
          exact first.trans (ih _ (first.owned stillOwned) (unshared.move first)
            fun other member => owners other (List.mem_cons_of_mem _ member))

theorem dispatchOrderAndActions_local (books : CacheBooks m) (owned : Owned m) (agvId : AgvId)
    (state : State) : LocalTo agvId m (m.dispatchOrderAndActions agvId state) := by
  have order := dispatchCurrentOrder_local books owned agvId state
  unfold dispatchOrderAndActions
  dsimp only
  split
  · exact order
  · exact order.trans (dispatchInstantActions_local (order.owned owned) agvId state)

theorem continueDispatch_local (books : CacheBooks m) (owned : Owned m) :
    ∃ agvId, LocalTo agvId m m.continueDispatch := by
  unfold continueDispatch
  split
  · exact ⟨⟨"", ""⟩, .refl _ m⟩
  · next current _ =>
    refine ⟨current.agvId, ?_⟩
    split
    · next error errors _ =>
      have looking : Owned { m with dispatching := some { current with errors := errors } } :=
        ⟨owned.current, owned.lastCache, owned.actionMaps, owned.bounded, owned.actions⟩
      have same : LocalTo current.agvId m
          { m with dispatching := some { current with errors := errors } } :=
        .of_same rfl rfl rfl rfl rfl rfl
      exact same.trans (dispatchError_local looking current.agvId error)
    · have finishing : Owned { m with dispatching := none } :=
        ⟨owned.current, owned.lastCache, owned.actionMaps, owned.bounded, owned.actions⟩
      have sameBooks : CacheBooks { m with dispatching := none } :=
        ⟨books.keyed, books.older, books.assigned⟩
      have same : LocalTo current.agvId m { m with dispatching := none } :=
        .of_same rfl rfl rfl rfl rfl rfl
      exact same.trans (dispatchOrderAndActions_local sameBooks finishing current.agvId
        current.state)

/-! ## Steps -/

theorem Owned.initial : Owned {} where
  current := by simp
  lastCache := by simp
  actionMaps := by simp
  bounded := by simp
  actions := by simp

private theorem addOrderStateCache_owned (owned : Owned m) (agvId : AgvId) (order : Order)
    (eventHandler : Nat) : Owned (m.addOrderStateCache agvId order eventHandler) := by
  have grown : (m.addOrderStateCache agvId order eventHandler).agvIds = m.agvIds ++ [agvId] := by
    simp [agvIds, addOrderStateCache]
  have older : ∀ {ref : Nat} {owner : AgvId}, m.agvIds[ref]? = some owner →
      (m.addOrderStateCache agvId order eventHandler).agvIds[ref]? = some owner := by
    intro ref owner known
    rw [grown, List.getElem?_append_left (List.getElem?_eq_some_iff.mp known).1]
    exact known
  have newest : (m.addOrderStateCache agvId order eventHandler).agvIds[m.orderStateCaches.length]? =
      some agvId := by
    rw [grown, List.getElem?_append_right (by simp [agvIds])]
    simp [agvIds]
  constructor
  · intro other orders found
    simp only [addOrderStateCache, lookup_setEntry] at found
    split at found
    · next same =>
      subst same
      rw [Option.some.injEq] at found
      subst found
      refine ⟨newest, ?_⟩
      intro key ref listed
      rw [lookup_setEntry] at listed
      split at listed
      · rw [← Option.some.inj listed]
        exact newest
      · cases current : m.currentOrders.lookup other with
        | none => simp [current] at listed
        | some earlier =>
            rw [current] at listed
            exact older ((owned.current current).2 listed)
    · obtain ⟨last, all⟩ := owned.current found
      exact ⟨older last, fun listed => older (all listed)⟩
  · intro ref last cache known points
    unfold addOrderStateCache at known
    rcases Nat.lt_or_ge ref m.orderStateCaches.length with old | new
    · rw [List.getElem?_append_left old] at known
      exact older (owned.lastCache known points)
    · rw [List.getElem?_append_right new] at known
      have member := List.mem_of_getElem? known
      rw [List.mem_singleton] at member
      subst member
      obtain ⟨orders, current, rfl⟩ := Option.map_eq_some_iff.mp points
      exact older (owned.current current).1
  · exact owned.actionMaps
  · exact owned.bounded
  · exact owned.actions

/-- Entries may be removed from any map. -/
private theorem shrink_owned (owned : Owned m) {ref : Nat}
    {entries : List (String × InstantActionStateCache)}
    (fewer : ∀ entry ∈ entries, entry ∈ (m.actionStateCaches[ref]?).getD []) :
    Owned (m.setActionStateCaches ref entries) where
  current := owned.current
  lastCache := owned.lastCache
  actionMaps := owned.actionMaps
  bounded := by
    intro agvId other found
    rw [setActionStateCaches, List.length_set]
    exact owned.bounded found
  actions := by
    intro agvId other found entry member
    have bound := owned.bounded found
    by_cases same : ref = other
    · subst same
      rw [setActionStateCaches, List.getElem?_set_self bound] at member
      exact owned.actions found entry (fewer entry member)
    · rw [setActionStateCaches, List.getElem?_set_ne same] at member
      exact owned.actions found entry member

/-- A vehicle without instant actions gets a new map. -/
private theorem newInstantActions_owned (owned : Owned m) {agvId : AgvId}
    (unused : m.currentInstantActions.lookup agvId = none) :
    Owned
      { m with
        actionStateCaches := m.actionStateCaches ++ [[]]
        currentInstantActions :=
          setEntry agvId m.actionStateCaches.length m.currentInstantActions } := by
  have found : ∀ {other ref},
      (setEntry agvId m.actionStateCaches.length m.currentInstantActions).lookup other = some ref →
      other = agvId ∧ ref = m.actionStateCaches.length ∨
        m.currentInstantActions.lookup other = some ref ∧ ref < m.actionStateCaches.length := by
    intro other ref listed
    rw [lookup_setEntry] at listed
    split at listed
    · next same => exact .inl ⟨same, (Option.some.inj listed).symm⟩
    · exact .inr ⟨listed, owned.bounded listed⟩
  constructor
  · exact owned.current
  · exact owned.lastCache
  · intro first second ref listed also
    rcases found listed with ⟨rfl, rfl⟩ | ⟨old, bound⟩
    · rcases found also with ⟨rfl, -⟩ | ⟨-, bound⟩
      · rfl
      · exact absurd bound (Nat.lt_irrefl _)
    · rcases found also with ⟨-, rfl⟩ | ⟨alsoOld, -⟩
      · exact absurd bound (Nat.lt_irrefl _)
      · exact owned.actionMaps old alsoOld
  · intro other ref listed
    rw [List.length_append]
    rcases found listed with ⟨-, rfl⟩ | ⟨-, bound⟩
    · exact Nat.lt_succ_self _
    · exact Nat.lt_succ_of_lt bound
  · intro other ref listed entry member
    rcases found listed with ⟨-, rfl⟩ | ⟨old, bound⟩
    · rw [List.getElem?_concat_length] at member
      cases member
    · dsimp only at member
      rw [List.getElem?_append_left bound] at member
      exact owned.actions old entry member

private theorem initiateInstantActions_owned (owned : Owned m) (agvId : AgvId)
    (actions : List Action)
    (eventHandler : Nat) : Owned (m.initiateInstantActions agvId actions eventHandler) := by
  -- New entries belong to the vehicle the actions are initiated on.
  have filled : ∀ (instantActionsRef : Nat) (actions : List Action)
      (entries : List (String × InstantActionStateCache)),
      (∀ entry ∈ entries, entry.2.agvId = agvId) →
      ∀ entry ∈ actions.foldl
          (fun entries action => setEntry action.actionId
            { agvId := agvId
              action := action
              eventHandler := eventHandler
              instantActionsRef := instantActionsRef } entries) entries,
        entry.2.agvId = agvId := by
    intro instantActionsRef actions
    induction actions with
    | nil => exact fun _ owners => owners
    | cons action actions ih =>
        intro entries owners
        apply ih
        intro entry member
        cases Library.mem_put member with
        | inl new => rw [new]
        | inr old => exact owners entry old
  unfold initiateInstantActions
  cases used : m.currentInstantActions.lookup agvId with
  | some ref =>
      dsimp only
      have set := LocalTo.setActionStateCaches (fun other different found =>
        different (owned.actionMaps used found))
        (fun _ => filled (m.currentInstantActionsRef.elim 1 (· + 1)) actions
          ((m.actionStateCaches[ref]?).getD []) (owned.actions used))
      have moved := set.owned owned
      exact ⟨moved.current, moved.lastCache, moved.actionMaps, moved.bounded, moved.actions⟩
  | none =>
      dsimp only
      have grown := newInstantActions_owned owned used
      have present : (setEntry agvId m.actionStateCaches.length
          m.currentInstantActions).lookup agvId = some m.actionStateCaches.length := by
        rw [lookup_setEntry, if_pos rfl]
      have set := LocalTo.setActionStateCaches (fun other different found =>
        different (grown.actionMaps present found))
        (fun _ => filled (m.currentInstantActionsRef.elim 1 (· + 1)) actions
          (((m.actionStateCaches ++ [[]])[m.actionStateCaches.length]?).getD [])
          (grown.actions present))
      have moved := set.owned grown
      exact ⟨moved.current, moved.lastCache, moved.actionMaps, moved.bounded, moved.actions⟩

private theorem instantActionsPublished_owned (owned : Owned m) (pending : PendingInstantActions)
    (succeeded : Bool) : Owned (m.instantActionsPublished pending succeeded) := by
  unfold instantActionsPublished
  dsimp only
  have waiting : Owned { m with pendingInstantActions := m.pendingInstantActions.erase pending } :=
    ⟨owned.current, owned.lastCache, owned.actionMaps, owned.bounded, owned.actions⟩
  split
  · exact ⟨owned.current, owned.lastCache, owned.actionMaps, owned.bounded, owned.actions⟩
  · have fewer : ∀ (actions : List Action) (entries : List (String × InstantActionStateCache)),
        ∀ entry ∈ actions.foldl (fun entries action => deleteEntry action.actionId entries) entries,
          entry ∈ entries := by
      intro actions
      induction actions with
      | nil => exact fun _ _ => id
      | cons action actions ih =>
          intro entries entry member
          exact List.mem_of_mem_filter (ih _ entry member)
    have shrunk := shrink_owned waiting
      (fewer pending.actions ((m.actionStateCaches[pending.actionStateCaches]?).getD []))
    split
    · exact (LocalTo.deleteInstantActions _ pending.agvId).owned shrunk
    · exact shrunk

theorem perform_owned (books : CacheBooks m) (owned : Owned m) (event : MasterEvent) :
    Owned (m.perform event) := by
  cases event with
  | assignOrder agvId order eventHandler =>
      simp only [perform, assignOrder]
      split
      · exact owned
      · have added := addOrderStateCache_owned owned agvId
          (Config.allocateNodes m.orderStateCaches.length order) eventHandler
        exact ⟨added.current, added.lastCache, added.actionMaps, added.bounded, added.actions⟩
  | orderPublished ref succeeded =>
      have waiting : Owned { m with pendingOrders := m.pendingOrders.erase ref } :=
        ⟨owned.current, owned.lastCache, owned.actionMaps, owned.bounded, owned.actions⟩
      simp only [perform, orderPublished]
      split
      · exact waiting
      · cases known : m.orderStateCaches[ref]? with
        | none =>
            unfold removeOrderStateCache
            simp only [known]
            exact waiting
        | some cache =>
            have present : ({ m with pendingOrders := m.pendingOrders.erase ref } :
                MasterController).orderStateCaches[ref]? = some cache := known
            exact (LocalTo.removeOrderStateCache present rfl false).owned waiting
  | initiateInstantActions agvId actions eventHandler =>
      exact initiateInstantActions_owned owned agvId actions eventHandler
  | instantActionsPublished pending succeeded =>
      exact instantActionsPublished_owned owned pending succeeded
  | state agvId state =>
      have same : LocalTo agvId m (m.dispatchState agvId state) := .of_same rfl rfl rfl rfl rfl rfl
      exact same.owned owned
  | continueDispatch =>
      obtain ⟨agvId, moved⟩ := continueDispatch_local books owned
      exact moved.owned owned

theorem Owned.of_run {events : List MasterEvent} {m : MasterController}
    (run : MasterRun events m) : Owned m :=
  run.invariant Owned Owned.initial fun earlier owned _ stepped => by
    obtain ⟨-, rfl⟩ := step_eq_some.mp stepped
    exact perform_owned (CacheBooks.of_run earlier) owned _

end MasterController

end Vda5050
