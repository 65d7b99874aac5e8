import Vda5050.MasterController.EdgeChanges
import Vda5050.MasterController.InstantActions

/-!
# Histories of edges

The callbacks invoked on the edges of an order, from the first order of its
chain on: an order takes over the history of the order it is stitched onto. In
runs in which only one edge is being traversed at a time, the changes reported
on an edge compose to the properties of the latest State.
-/

set_option autoImplicit false

namespace Vda5050

namespace MasterController

/-! ## The dispatch of a State to an order -/

/-- A State that is dispatched to an order, after the order has been stitched. -/
structure OrderDispatch where
  ref : Nat
  state : State
  stitchedOnto : Option Nat
  isCanceling : Bool
  cache : OrderStateCache
  deriving DecidableEq, Repr

/-- The dispatch to the order of a State whose errors have been looked at. -/
def orderDispatch (m : MasterController) : MasterEvent → Option OrderDispatch
  | .continueDispatch =>
      m.dispatching.bind fun current =>
        if current.errors = [] then
          let m : MasterController := { m with dispatching := none }
          (m.getOrderStateCache current.agvId current.state.orderId
            current.state.orderUpdateId).bind fun ref =>
            (m.orderStateCaches[ref]?).bind fun cache =>
              (m.stitchOntoActiveOrder ref cache).map fun stitched =>
                { ref := ref
                  state := current.state
                  stitchedOnto := m.getLastActiveOrderStateCache cache
                  isCanceling :=
                    stitched.1.isOrderCanceling stitched.2.agvId current.state
                      [.running, .finished]
                  cache := stitched.2 }
        else none
  | .assignOrder .. | .orderPublished .. | .initiateInstantActions ..
  | .instantActionsPublished .. | .state .. => none

/-- The callbacks invoked on the edges of an order in a step. -/
def invokedOn (ref : Nat) (m next : MasterController) : List EdgeCallback :=
  edgeCallbacks ref (next.notifications.drop m.notifications.length)

/-! ## Runs with histories -/

/-- A master controller with the callbacks invoked on the edges of each order
and of the orders it has been stitched onto. -/
structure Observed where
  master : MasterController := {}
  histories : Nat → List EdgeCallback := fun _ => []

namespace Observed

/-- The history of an order up to an event, which may stitch it onto another one. -/
def history (o : Observed) (event : MasterEvent) (ref : Nat) : List EdgeCallback :=
  match o.master.orderDispatch event with
  | none => o.histories ref
  | some dispatch =>
      if dispatch.ref = ref then
        (dispatch.stitchedOnto.map o.histories).getD (o.histories ref)
      else o.histories ref

def step (o : Observed) (event : MasterEvent) : Option Observed :=
  (o.master.step event).map fun next =>
    { master := next
      histories := fun ref => o.history event ref ++ invokedOn ref o.master next }

theorem step_eq_some {o next : Observed} {event : MasterEvent}
    (stepped : o.step event = some next) :
    o.master.step event = some next.master ∧
      ∀ ref, next.histories ref = o.history event ref ++ invokedOn ref o.master next.master := by
  obtain ⟨master, performed, rfl⟩ := Option.map_eq_some_iff.mp stepped
  exact ⟨performed, fun _ => rfl⟩

end Observed

/-- A State leads on to the next edge of its order only if no other edge is
being traversed any more. -/
def OneEdgeAtATime (o : Observed) (event : MasterEvent) : Prop :=
  ∀ dispatch, o.master.orderDispatch event = some dispatch → dispatch.isCanceling = false →
    OneEdge ((traversalAfter (o.history event dispatch.ref)).map (·.edge)) dispatch.cache
      dispatch.state

/-- What a step reports on the edges of orders composes with what has been reported before. -/
structure ComposesChanges (o : Observed) (event : MasterEvent) (next : Observed) : Prop where
  dispatched : ∀ dispatch, o.master.orderDispatch event = some dispatch →
    ReportsChanges dispatch.isCanceling dispatch.cache dispatch.state
      (reportsOn · (traversalAfter (o.history event dispatch.ref)))
      (invokedOn dispatch.ref o.master next.master)
  others : ∀ ref, (∀ dispatch, o.master.orderDispatch event = some dispatch →
    dispatch.ref ≠ ref) → invokedOn ref o.master next.master = []

/-! ## Steps that report nothing on edges -/

/-- Nothing is reported on the edges of an order. -/
structure KeepsEdges (ref : Nat) (m next : MasterController) : Prop where
  kept : ∀ cache, m.orderStateCaches[ref]? = some cache →
    ∃ cache', next.orderStateCaches[ref]? = some cache' ∧
      cache'.lastEdgeStateChanges = cache.lastEdgeStateChanges ∧
      cache'.edgeStateChangeInvocations = cache.edgeStateChangeInvocations
  notifications : ∃ added, next.notifications = m.notifications ++ added ∧
    edgeCallbacks ref added = []

variable {m middle next : MasterController} {ref other : Nat}

namespace KeepsEdges

theorem of_same (caches : next.orderStateCaches = m.orderStateCaches)
    (notifications : next.notifications = m.notifications) : KeepsEdges ref m next where
  kept cache known := ⟨cache, caches ▸ known, rfl, rfl⟩
  notifications := ⟨[], by simp [notifications], rfl⟩

theorem refl (ref : Nat) (m : MasterController) : KeepsEdges ref m m := of_same rfl rfl

theorem trans (first : KeepsEdges ref m middle) (second : KeepsEdges ref middle next) :
    KeepsEdges ref m next where
  kept := by
    intro cache known
    obtain ⟨cache', present, changes, invocations⟩ := first.kept cache known
    obtain ⟨cache'', still, changes', invocations'⟩ := second.kept cache' present
    exact ⟨cache'', still, changes'.trans changes, invocations'.trans invocations⟩
  notifications := by
    obtain ⟨added, appended, none⟩ := first.notifications
    obtain ⟨added', appended', none'⟩ := second.notifications
    refine ⟨added ++ added', by rw [appended', appended, List.append_assoc], ?_⟩
    unfold edgeCallbacks at none none' ⊢
    rw [List.filterMap_append, none, none', List.append_nil]

theorem notify (keeps : KeepsEdges ref m next) {notification : Notification}
    (silent : notification.edgeCallback ref = none) :
    KeepsEdges ref m (next.notify notification) := by
  apply keeps.trans
  constructor
  · exact fun cache known => ⟨cache, known, rfl, rfl⟩
  · exact ⟨[notification], rfl, by simp [edgeCallbacks, silent]⟩

theorem updateCache {cache cache' : OrderStateCache}
    (known : m.orderStateCaches[other]? = some cache)
    (same : other = ref → cache'.lastEdgeStateChanges = cache.lastEdgeStateChanges ∧
      cache'.edgeStateChangeInvocations = cache.edgeStateChangeInvocations) :
    KeepsEdges ref m (m.updateCache other cache') := by
  constructor
  · intro original present
    by_cases equal : other = ref
    · subst equal
      obtain rfl := Option.some.inj (known.symm.trans present)
      exact ⟨cache', updateCache_getElem m cache' known, same rfl⟩
    · refine ⟨original, ?_, rfl, rfl⟩
      unfold MasterController.updateCache
      rw [List.getElem?_set_ne equal]
      exact present
  · exact ⟨[], (List.append_nil _).symm, rfl⟩

theorem removeOrderStateCache (m : MasterController) (ref other : Nat) (deleteLastCache : Bool) :
    KeepsEdges ref m (m.removeOrderStateCache other deleteLastCache) := by
  have notifications := removeOrderStateCache_notifications m other deleteLastCache
  constructor
  · intro cache present
    unfold MasterController.removeOrderStateCache
    split
    · exact ⟨cache, present, rfl, rfl⟩
    · next otherCache known =>
      dsimp only
      rw [deleteOrderStateCache_orderStateCaches]
      split
      · exact (updateCache known fun _ => ⟨rfl, rfl⟩ : KeepsEdges ref m
          (m.updateCache other { otherCache with lastCache := none })).kept cache present
      · exact ⟨cache, present, rfl, rfl⟩
  · exact ⟨[], by simp [notifications], rfl⟩

theorem reportOrderProcessed {cache : OrderStateCache}
    (known : m.orderStateCaches[other]? = some cache) (ref : Nat) (state : State) :
    KeepsEdges ref m (m.reportOrderProcessed other cache state) := by
  have updated : KeepsEdges ref m
      (m.updateCache other { cache with isOrderProcessedHandlerInvoked := true }) :=
    updateCache known fun _ => ⟨rfl, rfl⟩
  unfold MasterController.reportOrderProcessed
  dsimp only
  split
  · split
    · exact updated.notify rfl
    · exact (updated.trans (removeOrderStateCache _ ref other true)).notify rfl
  · exact .refl ref m

private theorem edgeCallback_of_orderCache {notification : Notification}
    (instant : notification.orderCache = none) : notification.edgeCallback ref = none := by
  cases notification with
  | orderProcessed | nodeTraversed | edgeTraversing | edgeTraversed | actionStateChanged =>
      cases instant
  | instantActionStateChanged | instantActionError => rfl

theorem dispatchInstantActions (m : MasterController) (ref : Nat) (agvId : AgvId)
    (state : State) : KeepsEdges ref m (m.dispatchInstantActions agvId state) := by
  obtain ⟨added, appended, instant⟩ := dispatchInstantActions_notifications m agvId state
  have caches := (dispatchInstantActions_orders m agvId state).1
  constructor
  · exact fun cache known => ⟨cache, caches ▸ known, rfl, rfl⟩
  · refine ⟨added, appended, List.filterMap_eq_nil_iff.mpr fun notification member => ?_⟩
    exact edgeCallback_of_orderCache (instant notification member)

theorem dispatchError (m : MasterController) (ref : Nat) (agvId : AgvId) (error : Error) :
    KeepsEdges ref m (m.dispatchError agvId error) := by
  unfold MasterController.dispatchError
  split
  · exact .refl ref m
  · exact (removeOrderStateCache m ref _ false).notify rfl

theorem stitchOntoActiveOrder {cache : OrderStateCache}
    {stitched : MasterController × OrderStateCache}
    (known : m.orderStateCaches[other]? = some cache)
    (succeeded : m.stitchOntoActiveOrder other cache = some stitched) (different : other ≠ ref) :
    KeepsEdges ref m stitched.1 := by
  unfold MasterController.stitchOntoActiveOrder at succeeded
  split at succeeded
  · rw [← Option.some.inj succeeded]
    exact .refl ref m
  · split at succeeded
    · rw [← Option.some.inj succeeded]
      exact .refl ref m
    · split at succeeded
      · rw [← Option.some.inj succeeded]
        apply trans _ (removeOrderStateCache _ ref _ true)
        exact updateCache known fun same => absurd same different
      · cases succeeded

/-- The events of a State on one order are no events on another. -/
theorem tracked {cache : OrderStateCache} (known : m.orderStateCaches[other]? = some cache)
    (different : other ≠ ref) (isCanceling : Bool) (state : State) :
    KeepsEdges ref m (m.tracked other (track isCanceling other state cache).1) := by
  have about := track_isAbout isCanceling other state cache
  have updated : KeepsEdges ref m
      (m.updateCache other (track isCanceling other state cache).1.cache) :=
    updateCache known fun same => absurd same different
  refine ⟨updated.kept, _, rfl, List.filterMap_eq_nil_iff.mpr fun notification member => ?_⟩
  have progress := about.progress notification member
  cases notification with
  | edgeTraversing | edgeTraversed =>
      obtain ⟨rfl, -⟩ := progress
      exact if_neg different
  | orderProcessed | nodeTraversed | actionStateChanged | instantActionStateChanged
  | instantActionError => rfl

private theorem invokedOn (keeps : KeepsEdges ref m next) :
    MasterController.invokedOn ref m next = [] := by
  obtain ⟨added, appended, none⟩ := keeps.notifications
  unfold MasterController.invokedOn
  rw [appended, List.drop_left, none]

end KeepsEdges

/-! ## Steps -/

/-- After the events of a State on its order, only the end of the order is reported. -/
private theorem dispatchOrderState_tracked (books : CacheBooks m) (state : State) {ref : Nat}
    {cache : OrderStateCache} {stitched : MasterController × OrderStateCache}
    (known : m.orderStateCaches[ref]? = some cache)
    (succeeded : m.stitchOntoActiveOrder ref cache = some stitched) (other : Nat) :
    KeepsEdges other
      (stitched.1.tracked ref (track
        (stitched.1.isOrderCanceling stitched.2.agvId state [.running, .finished]) ref state
        stitched.2).1)
      (m.dispatchOrderState state ref) := by
  have present := stitchOntoActiveOrder_known m books known succeeded
  rw [dispatchOrderState_track m known succeeded]
  dsimp only
  split
  · apply KeepsEdges.reportOrderProcessed
    exact updateCache_getElem stitched.1 _ present
  · exact .of_same rfl rfl

private theorem dispatchOrderState_keepsEdges (books : CacheBooks m) {state : State}
    (silent : ∀ cache stitched, m.orderStateCaches[other]? = some cache →
      m.stitchOntoActiveOrder other cache = some stitched → other ≠ ref) :
    KeepsEdges ref m (m.dispatchOrderState state other) := by
  cases known : m.orderStateCaches[other]? with
  | none =>
      simp only [dispatchOrderState, known]
      exact .refl ref m
  | some cache =>
      cases succeeded : m.stitchOntoActiveOrder other cache with
      | none =>
          simp only [dispatchOrderState, known, succeeded]
          exact .of_same rfl rfl
      | some stitched =>
          have different := silent cache stitched known succeeded
          have present := stitchOntoActiveOrder_known m books known succeeded
          have stitching := KeepsEdges.stitchOntoActiveOrder known succeeded different
          exact (stitching.trans (.tracked present different _ state)).trans
            (dispatchOrderState_tracked books state known succeeded ref)

private theorem dispatchOrderAndActions_keepsEdges (m : MasterController) (ref : Nat)
    (agvId : AgvId) (state : State) :
    KeepsEdges ref (m.dispatchCurrentOrder agvId state) (m.dispatchOrderAndActions agvId state) := by
  unfold dispatchOrderAndActions
  dsimp only
  split
  · exact .refl ref _
  · exact .dispatchInstantActions _ ref agvId state

private theorem continueDispatch_keepsEdges (books : CacheBooks m)
    (others : ∀ dispatch, m.orderDispatch .continueDispatch = some dispatch →
      dispatch.ref ≠ ref) :
    KeepsEdges ref m m.continueDispatch := by
  have still : ∀ dispatching : Option Dispatching,
      KeepsEdges ref m { m with dispatching := dispatching } := fun _ => .of_same rfl rfl
  unfold continueDispatch
  cases dispatching : m.dispatching with
  | none => exact .refl ref m
  | some current =>
      dsimp only
      cases remaining : current.errors with
      | cons error errors =>
          exact (still (some { current with errors := errors })).trans
            (.dispatchError _ ref current.agvId error)
      | nil =>
          dsimp only
          have waiting : CacheBooks { m with dispatching := none } :=
            ⟨books.keyed, books.older, books.assigned⟩
          refine ((still none).trans ?_).trans
            (dispatchOrderAndActions_keepsEdges _ ref current.agvId current.state)
          unfold dispatchCurrentOrder
          split
          · exact .refl ref _
          · next other found =>
            apply dispatchOrderState_keepsEdges waiting
            intro cache stitched known succeeded
            apply others { ref := other
                           state := current.state
                           stitchedOnto :=
                             getLastActiveOrderStateCache { m with dispatching := none } cache
                           isCanceling := stitched.1.isOrderCanceling stitched.2.agvId
                             current.state [.running, .finished]
                           cache := stitched.2 }
            simp only [orderDispatch, dispatching, remaining, Option.bind_some, if_true, found,
              known, succeeded, Option.map_some]

private theorem perform_keepsEdges (books : CacheBooks m) {event : MasterEvent}
    (others : ∀ dispatch, m.orderDispatch event = some dispatch → dispatch.ref ≠ ref) :
    KeepsEdges ref m (m.perform event) := by
  cases event with
  | assignOrder agvId order eventHandler =>
      simp only [perform, assignOrder]
      split
      · exact .refl ref m
      · constructor
        · intro cache known
          refine ⟨cache, ?_, rfl, rfl⟩
          simp only [addOrderStateCache]
          rw [List.getElem?_append_left (List.getElem?_eq_some_iff.mp known).1]
          exact known
        · exact ⟨[], (List.append_nil _).symm, rfl⟩
  | orderPublished published succeeded =>
      simp only [perform, orderPublished]
      split
      · exact .of_same rfl rfl
      · apply KeepsEdges.trans _ (.removeOrderStateCache _ ref published false)
        exact .of_same rfl rfl
  | initiateInstantActions agvId actions eventHandler =>
      simp only [perform, initiateInstantActions]
      split <;> exact .of_same rfl rfl
  | instantActionsPublished pending succeeded =>
      simp only [perform, instantActionsPublished]
      split
      · exact .of_same rfl rfl
      · split <;> exact .of_same rfl rfl
  | state agvId state => exact .of_same rfl rfl
  | continueDispatch => exact continueDispatch_keepsEdges books others

/-- The data of a dispatch. -/
private theorem orderDispatch_eq_some {event : MasterEvent} {dispatch : OrderDispatch}
    (found : m.orderDispatch event = some dispatch) :
    event = .continueDispatch ∧ ∃ current cache stitched,
      m.dispatching = some current ∧ current.errors = [] ∧ current.state = dispatch.state ∧
      m.getOrderStateCache current.agvId current.state.orderId current.state.orderUpdateId =
        some dispatch.ref ∧
      m.orderStateCaches[dispatch.ref]? = some cache ∧
      stitchOntoActiveOrder { m with dispatching := none } dispatch.ref cache = some stitched ∧
      getLastActiveOrderStateCache { m with dispatching := none } cache = dispatch.stitchedOnto ∧
      stitched.2 = dispatch.cache ∧
      stitched.1.isOrderCanceling stitched.2.agvId dispatch.state [.running, .finished] =
        dispatch.isCanceling := by
  unfold orderDispatch at found
  split at found
  · obtain ⟨current, dispatching, found⟩ := Option.bind_eq_some_iff.mp found
    split at found
    · next remaining =>
      obtain ⟨ref, isCurrent, found⟩ := Option.bind_eq_some_iff.mp found
      obtain ⟨cache, known, found⟩ := Option.bind_eq_some_iff.mp found
      obtain ⟨stitched, succeeded, rfl⟩ := Option.map_eq_some_iff.mp found
      exact ⟨rfl, current, cache, stitched, dispatching, remaining, rfl, isCurrent, known,
        succeeded, rfl, rfl, rfl⟩
    · cases found
  all_goals cases found

/-! ## Snapshots -/

/-- The snapshots of all orders are what has been reported on the edge being traversed. -/
structure KeepsSnapshots (o : Observed) : Prop where
  snapshots : ∀ ref cache, o.master.orderStateCaches[ref]? = some cache →
    SnapshotOf (traversalAfter (o.histories ref)) cache
  unassigned : ∀ ref, o.master.orderStateCaches.length ≤ ref → o.histories ref = []

theorem KeepsSnapshots.initial : KeepsSnapshots {} where
  snapshots := by
    intro ref cache known
    cases known
  unassigned := fun _ _ => rfl

variable {o : Observed} {event : MasterEvent}

/-- The snapshot taken over by an order is what has been reported on its chain. -/
private theorem stitchOntoActiveOrder_snapshot {m : MasterController}
    {histories : Nat → List EdgeCallback}
    (snapshots : ∀ ref cache, m.orderStateCaches[ref]? = some cache →
      SnapshotOf (traversalAfter (histories ref)) cache) {ref : Nat}
    {cache : OrderStateCache} {stitched : MasterController × OrderStateCache}
    (known : m.orderStateCaches[ref]? = some cache)
    (succeeded : m.stitchOntoActiveOrder ref cache = some stitched) :
    SnapshotOf (traversalAfter
        (((m.getLastActiveOrderStateCache cache).map histories).getD (histories ref)))
      stitched.2 := by
  unfold stitchOntoActiveOrder at succeeded
  cases found : m.getLastActiveOrderStateCache cache with
  | none =>
      simp only [found] at succeeded
      obtain rfl := Option.some.inj succeeded
      exact snapshots ref cache known
  | some lastRef =>
      obtain ⟨lastCache, present, -⟩ := findActiveCache_spec m found
      have snapshot := snapshots lastRef lastCache present
      simp only [found, present] at succeeded
      split at succeeded
      · obtain rfl := Option.some.inj succeeded
        exact snapshot.of_same rfl rfl
      · cases succeeded

/-- An order that has just been assigned has no snapshot. -/
private theorem perform_unset (books : CacheBooks m) (owned : Owned m) {event : MasterEvent}
    {ref : Nat} {cache : OrderStateCache} (unassigned : m.orderStateCaches.length ≤ ref)
    (known : (m.perform event).orderStateCaches[ref]? = some cache) : SnapshotOf none cache := by
  have bound := (List.getElem?_eq_some_iff.mp known).1
  have old : (m.perform event).orderStateCaches.length = m.orderStateCaches.length →
      SnapshotOf none cache := fun same => absurd (same ▸ bound) (Nat.not_lt.mpr unassigned)
  cases event with
  | assignOrder agvId order eventHandler =>
      simp only [perform, assignOrder] at known old
      split at known
      · exact old (by simp [*])
      · simp only [addOrderStateCache] at known
        rw [List.getElem?_append_right unassigned] at known
        obtain rfl := List.mem_singleton.mp (List.mem_of_getElem? known)
        exact ⟨rfl, rfl⟩
  | orderPublished published succeeded =>
      apply old
      simp only [perform, orderPublished]
      split
      · rfl
      · simp only [removeOrderStateCache, Bool.false_eq_true, if_false]
        split
        · rfl
        · rw [deleteOrderStateCache_orderStateCaches]
  | initiateInstantActions agvId actions eventHandler =>
      apply old
      simp only [perform, initiateInstantActions]
      split <;> rfl
  | instantActionsPublished pending succeeded =>
      apply old
      simp only [perform, instantActionsPublished]
      split
      · rfl
      · split <;> rfl
  | state agvId state => exact old rfl
  | continueDispatch =>
      apply old
      obtain ⟨agvId, moved⟩ := continueDispatch_local books owned
      simpa [agvIds, perform] using congrArg List.length moved.agvIds

/-- The events of a State on its order, as they are seen on the handlers. -/
private theorem perform_dispatch (books : CacheBooks m) {event : MasterEvent}
    {dispatch : OrderDispatch} (found : m.orderDispatch event = some dispatch) :
    invokedOn dispatch.ref m (m.perform event) = edgeCallbacks dispatch.ref
        (track dispatch.isCanceling dispatch.ref dispatch.state dispatch.cache).1.notifications ∧
      ∃ cache, (m.perform event).orderStateCaches[dispatch.ref]? = some cache ∧
        ∀ traversal, SnapshotOf traversal
            (track dispatch.isCanceling dispatch.ref dispatch.state dispatch.cache).1.cache →
          SnapshotOf traversal cache := by
  obtain ⟨rfl, current, cache, stitched, dispatching, remaining, rightState, isCurrent, known,
    succeeded, -, rightCache, canceling⟩ := orderDispatch_eq_some found
  have waiting : CacheBooks { m with dispatching := none } :=
    ⟨books.keyed, books.older, books.assigned⟩
  have present := stitchOntoActiveOrder_known _ waiting known succeeded
  have after := dispatchOrderState_tracked waiting dispatch.state known succeeded dispatch.ref
  rw [canceling, rightCache] at after
  have finished : m.perform .continueDispatch = dispatchOrderAndActions
      { m with dispatching := none } current.agvId current.state := by
    simp only [perform, continueDispatch, dispatching, remaining]
  have order : dispatchCurrentOrder { m with dispatching := none } current.agvId current.state =
      dispatchOrderState { m with dispatching := none } dispatch.state dispatch.ref := by
    unfold dispatchCurrentOrder
    rw [← rightState, show getOrderStateCache { m with dispatching := none } current.agvId
      current.state.orderId current.state.orderUpdateId = some dispatch.ref from isCurrent]
  have rest := dispatchOrderAndActions_keepsEdges { m with dispatching := none } dispatch.ref
    current.agvId current.state
  rw [order, ← finished] at rest
  have keeps := after.trans rest
  constructor
  · obtain ⟨added, appended, none⟩ := keeps.notifications
    unfold invokedOn
    rw [appended]
    simp only [tracked]
    rw [stitchOntoActiveOrder_notifications succeeded, List.append_assoc, List.drop_left,
      edgeCallbacks, List.filterMap_append]
    exact (congrArg (_ ++ ·) none).trans (List.append_nil _)
  · obtain ⟨cache', present', changes, invocations⟩ :=
      keeps.kept _ (updateCache_getElem stitched.1 _ present)
    exact ⟨cache', present', fun traversal snapshot => snapshot.of_same changes invocations⟩

private theorem traversalAfter_append (past callbacks : List EdgeCallback) :
    traversalAfter (past ++ callbacks) =
      callbacks.foldl continueTraversal (traversalAfter past) := by
  simp [traversalAfter]

/-- A step reports on edges what composes with the reports before it. -/
private theorem Observed.step_composes {o next : Observed} {event : MasterEvent}
    (books : CacheBooks o.master) (owned : Owned o.master) (keeps : KeepsSnapshots o)
    (oneEdge : OneEdgeAtATime o event) (stepped : o.step event = some next) :
    ComposesChanges o event next ∧ KeepsSnapshots next := by
  obtain ⟨performed, histories⟩ := step_eq_some stepped
  obtain ⟨-, performs⟩ := MasterController.step_eq_some.mp performed
  have silent : ∀ ref, (∀ dispatch, o.master.orderDispatch event = some dispatch →
      dispatch.ref ≠ ref) →
      next.histories ref = o.histories ref ∧ KeepsEdges ref o.master next.master := by
    intro ref others
    have quiet : KeepsEdges ref o.master next.master := performs ▸ perform_keepsEdges books others
    refine ⟨?_, quiet⟩
    rw [histories, quiet.invokedOn, List.append_nil]
    unfold history
    cases found : o.master.orderDispatch event with
    | none => rfl
    | some dispatch => exact if_neg (others dispatch found)
  have reported : ∀ dispatch, o.master.orderDispatch event = some dispatch →
      ReportsChanges dispatch.isCanceling dispatch.cache dispatch.state
          (reportsOn · (traversalAfter (o.history event dispatch.ref)))
          (invokedOn dispatch.ref o.master next.master) ∧
        ∃ cache, next.master.orderStateCaches[dispatch.ref]? = some cache ∧
          SnapshotOf (traversalAfter (next.histories dispatch.ref)) cache := by
    intro dispatch found
    obtain ⟨-, current, cache, stitched, -, -, -, -, known, succeeded, base, rightCache, -⟩ :=
      orderDispatch_eq_some found
    have takenOver := stitchOntoActiveOrder_snapshot
      (m := { o.master with dispatching := none }) keeps.snapshots known succeeded
    rw [base, rightCache] at takenOver
    have history : o.history event dispatch.ref =
        (dispatch.stitchedOnto.map o.histories).getD (o.histories dispatch.ref) := by
      unfold Observed.history
      rw [found]
      exact if_pos rfl
    rw [← history] at takenOver
    obtain ⟨composes, snapshot⟩ := track_reportsChanges dispatch.ref takenOver
      (oneEdge dispatch found)
    obtain ⟨invoked, cache', present, same⟩ := perform_dispatch books found
    rw [performs] at invoked present
    rw [histories, invoked, traversalAfter_append]
    exact ⟨composes, cache', present, same _ snapshot⟩
  refine ⟨⟨fun dispatch found => (reported dispatch found).1,
    fun ref others => (silent ref others).2.invokedOn⟩, ?_, ?_⟩
  · intro ref cache' present
    by_cases dispatched : ∃ dispatch, o.master.orderDispatch event = some dispatch ∧
        dispatch.ref = ref
    · obtain ⟨dispatch, found, rfl⟩ := dispatched
      obtain ⟨-, cache, known, snapshot⟩ := reported dispatch found
      obtain rfl := Option.some.inj (known.symm.trans present)
      exact snapshot
    · obtain ⟨same, quiet⟩ := silent ref fun dispatch found equal =>
        dispatched ⟨dispatch, found, equal⟩
      rw [same]
      rcases Nat.lt_or_ge ref o.master.orderStateCaches.length with old | new
      · have known := List.getElem?_eq_getElem old
        obtain ⟨cache, present', changes, invocations⟩ := quiet.kept _ known
        obtain rfl := Option.some.inj (present'.symm.trans present)
        exact (keeps.snapshots ref _ known).of_same changes invocations
      · rw [keeps.unassigned ref new]
        rw [← performs] at present
        exact perform_unset books owned new present
  · intro ref unassigned
    have longer := performs ▸ (perform_move o.master books event).length
    have new := longer.trans unassigned
    refine (silent ref fun dispatch found same => ?_).1.trans (keeps.unassigned ref new)
    obtain ⟨-, -, cache, -, -, -, -, -, known, -⟩ := orderDispatch_eq_some found
    rw [same] at known
    exact absurd (List.getElem?_eq_some_iff.mp known).1 (Nat.not_lt.mpr new)

/-! ## Runs -/

/-- Runs in which only one edge of an order is being traversed at a time. -/
abbrev EdgeRun : List MasterEvent → Observed → Prop :=
  Library.Run Observed.step OneEdgeAtATime {}

variable {events : List MasterEvent} {o next : Observed} {event : MasterEvent}

theorem EdgeRun.masterRun (run : EdgeRun events o) : MasterRun events o.master := by
  induction run with
  | start => exact .start
  | advance _ _ stepped ih => exact .advance ih trivial (Observed.step_eq_some stepped).1

private theorem EdgeRun.keepsSnapshots (run : EdgeRun events o) : KeepsSnapshots o :=
  run.invariant KeepsSnapshots .initial fun earlier keeps oneEdge stepped =>
    have plain := EdgeRun.masterRun earlier
    (Observed.step_composes (CacheBooks.of_run plain) (Owned.of_run plain) keeps oneEdge stepped).2

/-- In runs in which only one edge is being traversed at a time, a State is
reported on the edge exactly if it is the first one or has news, and all changes
reported on the edge give the properties of the State. -/
theorem edgeStateChanges_compose (run : EdgeRun events o) (oneEdge : OneEdgeAtATime o event)
    (stepped : o.step event = some next) : ComposesChanges o event next :=
  (Observed.step_composes (CacheBooks.of_run run.masterRun) (Owned.of_run run.masterRun)
    run.keepsSnapshots oneEdge stepped).1

section

instance (processed : Option Edge) (state : State) (edge : Edge) :
    Decidable (IsLookedAt processed state edge) :=
  inferInstanceAs (Decidable (_ ∨ _))

instance (pending : Option Edge) (cache : OrderStateCache) (state : State) :
    Decidable (OneEdge pending cache state) :=
  decidable_of_iff
    ((∀ node ∈ cache.lastNodeTraversed, ∀ edge ∈ getNextReleasedEdge cache.combinedOrder node,
        IsLookedAt cache.lastEdgeProcessed state edge → pending = none ∨ pending = some edge) ∧
      ∀ reached ∈ nextNodeTraversed cache state, ∀ node ∈ reached,
        ∀ edge ∈ getNextReleasedEdge cache.combinedOrder node,
          IsLookedAt cache.lastEdgeProcessed state edge →
            pendingAfter pending cache state = none ∨
              pendingAfter pending cache state = some edge)
    ⟨fun ⟨last, next⟩ => ⟨last, fun node reached => next (some node) reached node rfl⟩,
      fun oneEdge => ⟨oneEdge.last, by
        rintro reached found node rfl
        exact oneEdge.next node found⟩⟩

instance (o : Observed) (event : MasterEvent) : Decidable (OneEdgeAtATime o event) :=
  inferInstanceAs (Decidable (∀ dispatch ∈ o.master.orderDispatch event,
    dispatch.isCanceling = false → OneEdge _ _ _))

end

def firstEdge : Edge where
  edgeId := "first"
  sequenceId := 1
  released := true
  startNodeId := "start"
  endNodeId := "middle"
  actions := []

def secondEdge : Edge where
  edgeId := "second"
  sequenceId := 3
  released := true
  startNodeId := "middle"
  endNodeId := "end"
  actions := []

/-- An order along two edges. -/
def twoEdgesOrder : Order where
  orderId := "order"
  orderUpdateId := 0
  nodes :=
    [{ nodeId := "start", sequenceId := 0, released := true, actions := [] },
      { nodeId := "middle", sequenceId := 2, released := true, actions := [] },
      { nodeId := "end", sequenceId := 4, released := true, actions := [] }]
  edges := [firstEdge, secondEdge]

/-- A State on one of the two edges. -/
def onFirstEdge (driving : Bool) : State :=
  { edgeOrderState "start" 0
      [{ nodeId := "middle", sequenceId := 2, released := true },
        { nodeId := "end", sequenceId := 4, released := true }]
      [{ edgeId := "first", sequenceId := 1, released := true },
        { edgeId := "second", sequenceId := 3, released := true }] [] with driving := driving }

def onSecondEdge (driving : Bool) (actionStates : List ActionState) : State :=
  { edgeOrderState "middle" 2 [{ nodeId := "end", sequenceId := 4, released := true }]
      [{ edgeId := "second", sequenceId := 3, released := true }] actionStates with
    driving := driving }

/-- The second edge is reported with all properties, when the first one is
reported as traversed by the same State. -/
theorem edgeStateChanges_compose_nextEdge :
    ∃ o next, EdgeRun
        [.assignOrder vehicle twoEdgesOrder 0, .orderPublished 0 true,
          .state vehicle (onFirstEdge false), .continueDispatch,
          .state vehicle (onSecondEdge true [])] o ∧
      o.step .continueDispatch = some next ∧
      invokedOn 0 o.master next.master =
        [.traversing firstEdge { driving := some true } 2, .traversed firstEdge,
          .traversing secondEdge (allChanges (edgeStateValues (onSecondEdge true []))) 1] ∧
      ComposesChanges o .continueDispatch next := by
  have passed : (Library.execute Observed.step OneEdgeAtATime {}
      [.assignOrder vehicle twoEdgesOrder 0, .orderPublished 0 true,
        .state vehicle (onFirstEdge false), .continueDispatch,
        .state vehicle (onSecondEdge true [])]).any
      (fun o => decide (OneEdgeAtATime o .continueDispatch) &&
        (o.step .continueDispatch).any fun next => decide (invokedOn 0 o.master next.master =
          [.traversing firstEdge { driving := some true } 2, .traversed firstEdge,
            .traversing secondEdge (allChanges (edgeStateValues (onSecondEdge true []))) 1])) =
        true := by decide +kernel
  obtain ⟨o, run, passed⟩ := Library.exists_run_of_execute passed
  rw [Bool.and_eq_true, decide_eq_true_eq, Option.any_eq_true] at passed
  obtain ⟨oneEdge, next, stepped, invoked⟩ := passed
  rw [decide_eq_true_eq] at invoked
  exact ⟨o, next, run, stepped, invoked, edgeStateChanges_compose run oneEdge stepped⟩

/-- The second edge has been reached while the order was being canceled, which
has failed. -/
def cancelationFailed : State :=
  onSecondEdge false
    [{ actionId := "cancel", actionStatus := .failed, actionType := "cancelOrder" }]

/-- The first report on the second edge contains what is new against the first
edge only, and is counted together with its reports. -/
theorem not_edgeStateChanges_compose :
    ∃ o next, Library.Run Observed.step (fun _ _ => True) {}
        [.assignOrder vehicle twoEdgesOrder 0, .orderPublished 0 true,
          .initiateInstantActions vehicle [cancelOrder] 1,
          .instantActionsPublished
            { agvId := vehicle, actionStateCaches := 0, actions := [cancelOrder],
              instantActionsRef := 1 } true,
          .state vehicle (onFirstEdge true), .continueDispatch,
          .state vehicle (onSecondEdge true
            [{ actionId := "cancel", actionStatus := .running, actionType := "cancelOrder" }]),
          .continueDispatch, .state vehicle cancelationFailed] o ∧
      o.step .continueDispatch = some next ∧
      invokedOn 0 o.master next.master =
        [.traversing secondEdge { driving := some false } 2] ∧
      ¬ ComposesChanges o .continueDispatch next := by
  have passed : (Library.execute Observed.step (fun _ _ => True) {}
      [.assignOrder vehicle twoEdgesOrder 0, .orderPublished 0 true,
        .initiateInstantActions vehicle [cancelOrder] 1,
        .instantActionsPublished
          { agvId := vehicle, actionStateCaches := 0, actions := [cancelOrder],
            instantActionsRef := 1 } true,
        .state vehicle (onFirstEdge true), .continueDispatch,
        .state vehicle (onSecondEdge true
          [{ actionId := "cancel", actionStatus := .running, actionType := "cancelOrder" }]),
        .continueDispatch, .state vehicle cancelationFailed]).any
      (fun o => ((o.master.orderDispatch .continueDispatch).any fun dispatch =>
          decide (dispatch.ref = 0 ∧ dispatch.isCanceling = false ∧
            dispatch.state = cancelationFailed ∧
            ∃ node ∈ dispatch.cache.lastNodeTraversed,
              getNextReleasedEdge dispatch.cache.combinedOrder node = some secondEdge ∧
                areAllBlockingActionsEnded node dispatch.state = true) &&
          decide (reportsOn secondEdge (traversalAfter (o.history .continueDispatch 0)) = [])) &&
        (o.step .continueDispatch).any fun next => decide (invokedOn 0 o.master next.master =
          [.traversing secondEdge { driving := some false } 2])) = true := by decide +kernel
  obtain ⟨o, run, passed⟩ := Library.exists_run_of_execute passed
  rw [Bool.and_eq_true, Option.any_eq_true, Option.any_eq_true] at passed
  obtain ⟨⟨dispatch, found, passed⟩, next, stepped, invoked⟩ := passed
  rw [Bool.and_eq_true, decide_eq_true_eq, decide_eq_true_eq] at passed
  rw [decide_eq_true_eq] at invoked
  obtain ⟨⟨ref, going, rightState, node, last, behind, ready⟩, reports⟩ := passed
  refine ⟨o, next, run, stepped, invoked, fun composes => ?_⟩
  have changes := composes.dispatched dispatch found
  rw [ref, invoked] at changes
  have underway := changes.underway secondEdge node (.inl last) ⟨going, behind, by
    rw [if_pos (rightState ▸ by decide)]
    exact .inr ready⟩
  have first := underway.first reports
  cases first

end MasterController

end Vda5050
