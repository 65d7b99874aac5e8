import Vda5050.MasterController.Isolation
import Vda5050.MasterController.FinishedOrder

/-!
# Callbacks of one vehicle and States of another

The dispatch of a whole State, as a function. A State of one vehicle delivers no
callbacks of another one, and as long as it does not change the validation
errors of instant actions, it has no influence on later callbacks either.
-/

set_option autoImplicit false

namespace Vda5050

namespace MasterController

variable {m twin : MasterController} {agvId : AgvId}

/-! ## Whole States -/

/-- The loop over the errors of a State. -/
def dispatchErrors (m : MasterController) (agvId : AgvId) (errors : List Error) :
    MasterController :=
  errors.foldl (fun m error => m.dispatchError agvId error) m

/-- `_dispatchState`, if no handler calls the master controller meanwhile. -/
def dispatchWhole (m : MasterController) (agvId : AgvId) (state : State) : MasterController :=
  if m.crashed then m
  else (m.dispatchErrors agvId (errorsOf state)).dispatchOrderAndActions agvId state

/-- The steps of the dispatch of a State. -/
def dispatchEvents (agvId : AgvId) (state : State) : List MasterEvent :=
  .state agvId state :: List.replicate ((errorsOf state).length + 1) .continueDispatch

private theorem deleteOrderStateCache_dispatching (m : MasterController)
    (dispatching : Option Dispatching) (agvId : AgvId) (orderId : String) (orderUpdateId : Nat) :
    { m with dispatching := dispatching }.deleteOrderStateCache agvId orderId orderUpdateId =
      { m.deleteOrderStateCache agvId orderId orderUpdateId with dispatching := dispatching } := by
  unfold deleteOrderStateCache
  cases m.currentOrders.lookup agvId with
  | none => rfl
  | some orders =>
      dsimp only
      cases orders.caches.lookup (orderId, orderUpdateId) <;> rfl

private theorem dispatchError_dispatching (m : MasterController) (dispatching : Option Dispatching)
    (agvId : AgvId) (error : Error) :
    { m with dispatching := dispatching }.dispatchError agvId error =
      { m.dispatchError agvId error with dispatching := dispatching } := by
  have rejected : { m with dispatching := dispatching }.rejectedCache agvId error =
      m.rejectedCache agvId error := rfl
  unfold dispatchError
  rw [rejected]
  cases m.rejectedCache agvId error with
  | none => rfl
  | some ref =>
      simp only [removeOrderStateCache, Bool.false_eq_true, if_false]
      cases m.orderStateCaches[ref]? with
      | none => rfl
      | some cache =>
          dsimp only
          rw [deleteOrderStateCache_dispatching]
          rfl

private theorem removeOrderStateCache_rest (m : MasterController) (ref : Nat)
    (deleteLastCache : Bool) :
    SameRest m (m.removeOrderStateCache ref deleteLastCache) := by
  obtain ⟨caches, orders, removed⟩ := m.removeOrderStateCache_eq ref deleteLastCache
  rw [removed]
  exact ⟨rfl, rfl, rfl, rfl, rfl⟩

private theorem dispatchError_rest (m : MasterController) (agvId : AgvId) (error : Error) :
    SameRest m (m.dispatchError agvId error) := by
  have removed := removeOrderStateCache_rest m
  unfold dispatchError
  split
  · exact ⟨rfl, rfl, rfl, rfl, rfl⟩
  · exact (removed _ _).trans ⟨rfl, rfl, rfl, rfl, rfl⟩

/-- The steps of the dispatch of a State, without interruption by handlers. -/
theorem run_dispatchEvents {events : List MasterEvent} (run : MasterRun events m)
    (idle : m.dispatching = none) (alive : m.crashed = false) (agvId : AgvId) (state : State) :
    MasterRun (events ++ dispatchEvents agvId state) (m.dispatchWhole agvId state) := by
  have first : MasterRun (events ++ [.state agvId state]) (m.dispatchState agvId state) :=
    run.advance trivial (by simp [step, enabled, perform, idle, alive])
  -- Induction on the errors that have not been looked at.
  have looking : ∀ (errors : List Error) (m : MasterController) (events : List MasterEvent),
      MasterRun events
        { m with dispatching := some { agvId := agvId, state := state, errors := errors } } →
      m.dispatching = none → m.crashed = false →
      MasterRun (events ++ List.replicate (errors.length + 1) .continueDispatch)
        ((m.dispatchErrors agvId errors).dispatchOrderAndActions agvId state) := by
    intro errors
    induction errors with
    | nil =>
        intro m events run idle alive
        have kept : { m with dispatching := none } = m := by rw [← idle]
        refine run.advance trivial (step_eq_some.mpr ⟨by simp [enabled, alive], ?_⟩)
        simp only [perform, continueDispatch, kept]
        rfl
    | cons error errors ih =>
        intro m events run idle alive
        have stepped : MasterRun (events ++ [.continueDispatch])
            { m.dispatchError agvId error with
              dispatching := some { agvId := agvId, state := state, errors := errors } } := by
          refine run.advance trivial (step_eq_some.mpr ⟨by simp [enabled, alive], ?_⟩)
          simp only [perform, continueDispatch]
          exact dispatchError_dispatching m _ agvId error
        have still : (m.dispatchError agvId error).dispatching = none := by
          have equal := dispatchError_dispatching m none agvId error
          have kept : { m with dispatching := none } = m := by rw [← idle]
          rw [kept] at equal
          rw [equal]
        have rest := ih _ _ stepped still ((dispatchError_rest m agvId error).crashed.trans alive)
        rw [List.append_assoc] at rest
        exact rest
  have whole := looking (errorsOf state) m _ first idle alive
  rw [List.append_assoc] at whole
  unfold dispatchWhole
  rw [if_neg (by simp [alive])]
  exact whole

/-! ## The vehicle itself -/

/-- What every dispatch needs to know about the caches. -/
structure Kept (m : MasterController) : Prop where
  books : CacheBooks m
  owned : Owned m

theorem Kept.dispatchError (kept : Kept m) (agvId : AgvId) (error : Error) :
    Kept (m.dispatchError agvId error) where
  books := (dispatchError_move m (fun _ _ _ => False) agvId error).books kept.books
  owned := (dispatchError_local kept.owned agvId error).owned kept.owned

private theorem Kept.dispatchErrors (kept : Kept m) (agvId : AgvId) (errors : List Error) :
    Kept (m.dispatchErrors agvId errors) := by
  unfold MasterController.dispatchErrors
  induction errors generalizing m with
  | nil => exact kept
  | cons error errors ih => exact ih (kept.dispatchError agvId error)

private theorem dispatchErrors_local (kept : Kept m) (agvId : AgvId) (errors : List Error) :
    LocalTo agvId m (m.dispatchErrors agvId errors) := by
  unfold MasterController.dispatchErrors
  induction errors generalizing m with
  | nil => exact .refl agvId m
  | cons error errors ih =>
      exact (dispatchError_local kept.owned agvId error).trans (ih (kept.dispatchError agvId error))

private theorem dispatchWhole_local (kept : Kept m) (agvId : AgvId) (state : State) :
    LocalTo agvId m (m.dispatchWhole agvId state) := by
  unfold dispatchWhole
  split
  · exact .refl agvId m
  · have looked := kept.dispatchErrors agvId (errorsOf state)
    exact (dispatchErrors_local kept agvId (errorsOf state)).trans
      (dispatchOrderAndActions_local looked.books looked.owned agvId state)

private theorem Kept.dispatchWhole (kept : Kept m) (agvId : AgvId) (state : State) :
    Kept (m.dispatchWhole agvId state) where
  books := by
    have looked := kept.dispatchErrors agvId (errorsOf state)
    unfold MasterController.dispatchWhole
    split
    · exact kept.books
    · exact (dispatchOrderAndActions_move _ (fun _ _ _ => False) looked.books agvId state).books
        looked.books
  owned := (dispatchWhole_local kept agvId state).owned kept.owned

namespace SameFor

theorem dispatchError (same : SameFor agvId m twin) (owned : Owned m) (error : Error) :
    SameFor agvId (m.dispatchError agvId error) (twin.dispatchError agvId error) := by
  have rejected : twin.rejectedCache agvId error = m.rejectedCache agvId error := by
    unfold rejectedCache
    simp only [same.getOrderStateCache]
  unfold MasterController.dispatchError
  rw [rejected]
  cases found : m.rejectedCache agvId error with
  | none => exact same
  | some ref =>
      obtain ⟨cache, known, owner⟩ := owned.rejectedCache found
      exact (same.removeOrderStateCache known owner false).notify _

private theorem dispatchErrors (same : SameFor agvId m twin) (kept : Kept m) (errors : List Error) :
    SameFor agvId (m.dispatchErrors agvId errors) (twin.dispatchErrors agvId errors) := by
  unfold MasterController.dispatchErrors
  induction errors generalizing m twin with
  | nil => exact same
  | cons error errors ih =>
      exact ih (same.dispatchError kept.owned error) (kept.dispatchError agvId error)

theorem dispatchCurrentOrder (same : SameFor agvId m twin) (kept : Kept m) (state : State) :
    SameFor agvId (m.dispatchCurrentOrder agvId state) (twin.dispatchCurrentOrder agvId state) := by
  unfold MasterController.dispatchCurrentOrder
  rw [same.getOrderStateCache]
  cases found : m.getOrderStateCache agvId state.orderId state.orderUpdateId with
  | none => exact same
  | some ref =>
      obtain ⟨cache, known, owner⟩ := kept.owned.getOrderStateCache found
      exact same.dispatchOrderState kept.books kept.owned known owner state

theorem updateInstantActionsValidationError (same : SameFor agvId m twin) (errors : List Error) :
    SameFor agvId (m.updateInstantActionsValidationError errors)
      (twin.updateInstantActionsValidationError errors) := by
  have updated : ∀ ref, m.currentInstantActions.lookup agvId = some ref →
      SameErrors (m.updateInstantActionsValidationError errors)
        (twin.updateInstantActionsValidationError errors)
        ((m.actionStateCaches[ref]?).getD []) := by
    intro ref used
    cases same.errors ref used with
    | inl equal =>
        exact .inl (updateInstantActionsValidationError_congr same.currentInstantActionsRef equal
          errors)
    | inr unnamed =>
        refine .inr fun entry member => ?_
        obtain ⟨first, second⟩ := unnamed entry member
        exact ⟨fun nameable => first (updateInstantActionsValidationError_isNameable nameable),
          fun nameable => second (updateInstantActionsValidationError_isNameable nameable)⟩
  rw [updateInstantActionsValidationError_set m, updateInstantActionsValidationError_set twin]
    at updated ⊢
  exact { same with errors := updated }

theorem dispatchInstantActions (same : SameFor agvId m twin) (owned : Owned m) (state : State) :
    SameFor agvId (m.dispatchInstantActions agvId state)
      (twin.dispatchInstantActions agvId state) := by
  have updated := same.updateInstantActionsValidationError (errorsOf state)
  have stillOwned :=
    (updateInstantActionsValidationError_local m agvId (errorsOf state)).owned owned
  unfold MasterController.dispatchInstantActions
  dsimp only
  generalize m.updateInstantActionsValidationError (errorsOf state) = next at updated stillOwned
  generalize twin.updateInstantActionsValidationError (errorsOf state) = twinNext at updated
  rw [updated.actions]
  cases used : next.currentInstantActions.lookup agvId with
  | none => exact updated
  | some ref =>
      dsimp only
      rw [updated.entries ref used]
      have owners := stillOwned.actions used
      have errors := updated.errors ref used
      have equal : SameEntries agvId ref next twinNext := ⟨updated, updated.entries ref used, errors⟩
      generalize (next.actionStateCaches[ref]?).getD [] = entries at owners errors
      clear stillOwned updated used
      induction entries generalizing next twinNext with
      | nil => exact equal.same
      | cons entry entries ih =>
          have first := equal.dispatchInstantAction state errors List.mem_cons_self
            (owners entry List.mem_cons_self)
          have moved := errors.move (dispatchInstantAction_rest ref state next entry)
            (dispatchInstantAction_rest ref state twinNext entry)
          exact ih _ _ first (fun other member => owners other (List.mem_cons_of_mem _ member))
            (moved.mono fun _ => List.mem_cons_of_mem _)

/-- The dispatch of a State of the vehicle. -/
private theorem dispatchWhole (same : SameFor agvId m twin) (kept : Kept m) (state : State) :
    SameFor agvId (m.dispatchWhole agvId state) (twin.dispatchWhole agvId state) := by
  unfold MasterController.dispatchWhole
  rw [same.crashed]
  split
  · exact same
  · have looked := same.dispatchErrors kept (errorsOf state)
    have stillKept := kept.dispatchErrors agvId (errorsOf state)
    have order := looked.dispatchCurrentOrder stillKept state
    have moved := dispatchCurrentOrder_local stillKept.books stillKept.owned agvId state
    unfold dispatchOrderAndActions
    dsimp only
    rw [order.crashed]
    split
    · exact order
    · exact order.dispatchInstantActions (moved.owned stillKept.owned) state

/-- The dispatch of any States of the vehicle. -/
private theorem foldl_dispatchWhole (same : SameFor agvId m twin) (kept : Kept m)
    (states : List State) :
    SameFor agvId (states.foldl (·.dispatchWhole agvId ·) m)
      (states.foldl (·.dispatchWhole agvId ·) twin) := by
  induction states generalizing m twin with
  | nil => exact same
  | cons state states ih => exact ih (same.dispatchWhole kept state) (kept.dispatchWhole agvId state)

end SameFor

/-! ## States of another vehicle -/

private theorem stitchOntoActiveOrder_rest {ref : Nat} {cache : OrderStateCache}
    {stitched : MasterController × OrderStateCache}
    (succeeded : m.stitchOntoActiveOrder ref cache = some stitched) :
    SameRest m stitched.1 := by
  unfold stitchOntoActiveOrder at succeeded
  split at succeeded
  · rw [← Option.some.inj succeeded]
    exact ⟨rfl, rfl, rfl, rfl, rfl⟩
  · split at succeeded
    · rw [← Option.some.inj succeeded]
      exact ⟨rfl, rfl, rfl, rfl, rfl⟩
    · split at succeeded
      · rw [← Option.some.inj succeeded]
        have removed := removeOrderStateCache_rest
        exact ⟨(removed _ _ _).1, (removed _ _ _).2, (removed _ _ _).3, (removed _ _ _).4,
          (removed _ _ _).5⟩
      · cases succeeded

private theorem reportOrderProcessed_rest (m : MasterController) (ref : Nat)
    (cache : OrderStateCache)
    (state : State) : SameRest m (m.reportOrderProcessed ref cache state) := by
  have removed := removeOrderStateCache_rest
  unfold reportOrderProcessed
  dsimp only
  split
  · split
    · exact ⟨rfl, rfl, rfl, rfl, rfl⟩
    · exact ⟨(removed _ _ _).1, (removed _ _ _).2, (removed _ _ _).3, (removed _ _ _).4,
        (removed _ _ _).5⟩
  · exact ⟨rfl, rfl, rfl, rfl, rfl⟩

/-- The order starts with a node of its base. -/
def StartsOnBase (order : Order) : Prop := order.nodes.head?.any (·.released) = true

theorem StartsOnBase.findIdx? {order : Order} (starts : StartsOnBase order) :
    ∃ node rest, order.nodes = node :: rest ∧
      (order.nodes.findIdx? (!·.released) = none ∨
        ∃ index < rest.length, order.nodes.findIdx? (!·.released) = some (index + 1)) := by
  unfold StartsOnBase at starts
  cases nodes : order.nodes with
  | nil => simp [nodes] at starts
  | cons node rest =>
      rw [nodes, List.head?_cons, Option.any_some] at starts
      refine ⟨node, rest, rfl, ?_⟩
      rw [List.findIdx?_cons, starts]
      cases found : rest.findIdx? (!·.released) with
      | none => exact .inl rfl
      | some index =>
          exact .inr ⟨index, (List.findIdx?_eq_some_iff_getElem.mp found).1, rfl⟩

theorem StartsOnBase.lastBaseEnd {order : Order} (starts : StartsOnBase order) :
    ∃ baseEnd, lastBaseEnd order = some baseEnd := by
  obtain ⟨node, rest, nodes, unreleased | ⟨index, bound, unreleased⟩⟩ := starts.findIdx?
  · unfold MasterController.lastBaseEnd
    rw [unreleased, nodes]
    exact ⟨_, List.getLast?_eq_some_getLast (List.cons_ne_nil node rest)⟩
  · unfold MasterController.lastBaseEnd
    rw [unreleased, nodes]
    exact ⟨_, List.getElem?_eq_getElem (Nat.lt_succ_of_lt bound)⟩

theorem StartsOnBase.stitch {cache lastCache : OrderStateCache} {firstNode baseEnd : Node}
    (starts : StartsOnBase lastCache.combinedOrder) :
    (cache.stitch lastCache firstNode baseEnd).combinedOrder.nodes ≠ [] := by
  obtain ⟨node, rest, nodes, unreleased | ⟨index, bound, unreleased⟩⟩ := starts.findIdx?
  · simp only [OrderStateCache.stitch, stitchCombinedOrder, unreleased]
    simp [sliceBefore, nodes]
  · simp only [OrderStateCache.stitch, stitchCombinedOrder, unreleased]
    simp [sliceBefore, nodes]

/-- All cached orders of the vehicle start with a node of the base. -/
def OrdersStartOnBase (m : MasterController) (agvId : AgvId) : Prop :=
  ∀ orderId orderUpdateId ref cache, m.getOrderStateCache agvId orderId orderUpdateId = some ref →
    m.orderStateCaches[ref]? = some cache → StartsOnBase cache.combinedOrder

private theorem dispatchError_orderStateCaches (m : MasterController) (agvId : AgvId)
    (error : Error) :
    (m.dispatchError agvId error).orderStateCaches = m.orderStateCaches := by
  unfold dispatchError
  split
  · rfl
  · simp only [removeOrderStateCache, Bool.false_eq_true, if_false, notify]
    split
    · rfl
    · exact deleteOrderStateCache_orderStateCaches ..

private theorem OrdersStartOnBase.dispatchErrors (starts : OrdersStartOnBase m agvId)
    (errors : List Error) : OrdersStartOnBase (m.dispatchErrors agvId errors) agvId := by
  unfold MasterController.dispatchErrors
  induction errors generalizing m with
  | nil => exact starts
  | cons error errors ih =>
      apply ih
      intro orderId orderUpdateId ref cache found known
      rw [dispatchError_orderStateCaches] at known
      have move := dispatchError_move m (fun _ _ _ => False) agvId error
      cases move.found agvId orderId orderUpdateId ref found with
      | inl old => exact starts orderId orderUpdateId ref cache old known
      | inr new => exact new.2.elim

private theorem track_succeeds {cache : OrderStateCache} (nodes : cache.combinedOrder.nodes ≠ [])
    (isCanceling : Bool) (ref : Nat) (state : State) :
    (track isCanceling ref state cache).2 = true := by
  have traversal := (foldl_updateActionState_tracked ref state state.actionStates
    { cache := cache }).trans (updateTraversal_tracked isCanceling ref state _)
  have combined := traversal.combinedOrder
  unfold track
  dsimp only
  split
  · next failed =>
    unfold nextNodeTraversed at failed
    split at failed
    · split at failed
      · next empty =>
        rw [combined] at empty
        exact absurd (List.head?_eq_none_iff.mp empty) nodes
      · split at failed <;> cases failed
    · split at failed <;> cases failed
  · rfl

/-- No error is thrown for a vehicle whose orders start with a node of the base. -/
private theorem dispatchOrderState_rest (books : CacheBooks m) (starts : OrdersStartOnBase m agvId)
    (state : State) {orderId : String} {orderUpdateId ref : Nat}
    (found : m.getOrderStateCache agvId orderId orderUpdateId = some ref) :
    SameRest m (m.dispatchOrderState state ref) := by
  obtain ⟨cache, known, owner, -, -⟩ := books.keyed _ _ _ _ found
  have first := starts _ _ _ _ found known
  have nodes : cache.combinedOrder.nodes ≠ [] := by
    obtain ⟨node, rest, nodes, -⟩ := first.findIdx?
    rw [nodes]
    exact List.cons_ne_nil node rest
  have stitching : ∃ stitched, m.stitchOntoActiveOrder ref cache = some stitched ∧
      stitched.2.combinedOrder.nodes ≠ [] := by
    unfold stitchOntoActiveOrder
    cases active : m.getLastActiveOrderStateCache cache with
    | none => exact ⟨(m, cache), rfl, nodes⟩
    | some lastRef =>
        obtain ⟨lastCache, present, current⟩ := findActiveCache_spec m active
        rw [owner] at current
        have lastStarts := starts _ _ _ _ current present
        obtain ⟨firstNode, isFirst⟩ : ∃ firstNode, cache.combinedOrder.nodes.head? = some firstNode :=
          Option.isSome_iff_exists.mp (List.isSome_head?.mpr nodes)
        obtain ⟨baseEnd, isEnd⟩ := lastStarts.lastBaseEnd
        simp only [present, isFirst, isEnd]
        exact ⟨_, rfl, lastStarts.stitch⟩
  obtain ⟨stitched, succeeded, someNodes⟩ := stitching
  have stitchedRest := stitchOntoActiveOrder_rest succeeded
  rw [dispatchOrderState_track m known succeeded]
  dsimp only
  rw [track_succeeds someNodes, if_pos rfl]
  have tracked : SameRest stitched.1 (stitched.1.tracked ref (track
      (stitched.1.isOrderCanceling stitched.2.agvId state [.running, .finished]) ref state
        stitched.2).1) := ⟨rfl, rfl, rfl, rfl, rfl⟩
  exact stitchedRest.trans (tracked.trans (reportOrderProcessed_rest _ ref _ state))

private theorem dispatchErrors_rest (m : MasterController) (agvId : AgvId) (errors : List Error) :
    SameRest m (m.dispatchErrors agvId errors) := by
  unfold dispatchErrors
  induction errors generalizing m with
  | nil => exact ⟨rfl, rfl, rfl, rfl, rfl⟩
  | cons error errors ih => exact (dispatchError_rest m agvId error).trans (ih _)

/-- A State only updates the validation errors of instant actions. -/
private theorem dispatchWhole_errors (kept : Kept m) (starts : OrdersStartOnBase m agvId)
    (alive : m.crashed = false) (state : State) :
    (m.dispatchWhole agvId state).crashed = false ∧
      (m.dispatchWhole agvId state).currentInstantActionsRef = m.currentInstantActionsRef ∧
      (m.dispatchWhole agvId state).currentInstantActionsValidationErrors =
        (m.updateInstantActionsValidationError
          (errorsOf state)).currentInstantActionsValidationErrors := by
  have looked := dispatchErrors_rest m agvId (errorsOf state)
  have stillKept := kept.dispatchErrors agvId (errorsOf state)
  have order : SameRest m
      ((m.dispatchErrors agvId (errorsOf state)).dispatchCurrentOrder agvId state) := by
    refine looked.trans ?_
    unfold dispatchCurrentOrder
    split
    · exact ⟨rfl, rfl, rfl, rfl, rfl⟩
    · next found =>
      exact dispatchOrderState_rest stillKept.books (starts.dispatchErrors (errorsOf state)) state
        found
  unfold dispatchWhole dispatchOrderAndActions
  rw [if_neg (by simp [alive])]
  dsimp only
  rw [if_neg (by simp [order.crashed, alive])]
  generalize (m.dispatchErrors agvId (errorsOf state)).dispatchCurrentOrder agvId state = next
    at order
  have updated := updateInstantActionsValidationError_congr order.currentInstantActionsRef
    order.errors (errorsOf state)
  rw [← updated, ← alive, ← order.crashed, ← order.currentInstantActionsRef]
  have set := updateInstantActionsValidationError_set next (errorsOf state)
  have same : (next.updateInstantActionsValidationError (errorsOf state)).crashed = next.crashed ∧
      (next.updateInstantActionsValidationError (errorsOf state)).currentInstantActionsRef =
        next.currentInstantActionsRef := by
    rw [set]
    exact ⟨rfl, rfl⟩
  have dispatched := dispatchInstantActions_rest next agvId state
  exact ⟨dispatched.crashed.trans same.1, dispatched.currentInstantActionsRef.trans same.2,
    dispatched.errors⟩

theorem LocalTo.callbacksFor {other : AgvId} {next : MasterController}
    (moved : LocalTo other m next) (different : other ≠ agvId) :
    next.callbacksFor agvId = m.callbacksFor agvId := by
  obtain ⟨added, appended, fits⟩ := moved.notifications
  rw [callbacksFor_append moved.agvIds appended agvId]
  suffices none : added.filter (·.isFor m.agvIds agvId) = [] by rw [none, List.append_nil]
  rw [List.filter_eq_nil_iff]
  intro notification member both
  have fit := fits notification member
  -- A callback belongs to one vehicle only.
  cases notification <;>
    · simp only [Notification.isFor, decide_eq_true_eq] at fit both
      rw [fit] at both
      first
      | exact different (Option.some.inj both)
      | exact different both

/-- The State leaves the errors attributed to messages to the vehicle as they are. -/
def KeepsErrors (m : MasterController) (agvId : AgvId) (state : State) : Prop :=
  m.currentInstantActionsRef = none ∨
    ((errorsOf state).filter isInstantActionsValidationError).length =
      m.currentInstantActionsValidationErrors.length ∨
    ∀ ref, m.currentInstantActions.lookup agvId = some ref →
      ∀ entry ∈ (m.actionStateCaches[ref]?).getD [], ¬ m.IsNameable entry.2.instantActionsRef

theorem KeepsErrors.update {state : State} (keeps : KeepsErrors m agvId state) :
    (m.updateInstantActionsValidationError
        (errorsOf state)).currentInstantActionsValidationErrors =
        m.currentInstantActionsValidationErrors ∨
      ∀ ref, m.currentInstantActions.lookup agvId = some ref →
        ∀ entry ∈ (m.actionStateCaches[ref]?).getD [],
          ¬ m.IsNameable entry.2.instantActionsRef := by
  rcases keeps with unused | equal | unnamed
  · left
    unfold updateInstantActionsValidationError
    rw [unused]
  · left
    unfold updateInstantActionsValidationError
    split
    · rfl
    · simp [equal]
  · exact .inr unnamed

/-- A State of another vehicle changes nothing for a vehicle. -/
private theorem SameFor.of_otherState (kept : Kept m) {other : AgvId} (different : other ≠ agvId)
    {state : State} (starts : OrdersStartOnBase m other) (keeps : KeepsErrors m agvId state) :
    SameFor agvId m (m.dispatchWhole other state) := by
  cases crashed : m.crashed with
  | true =>
      unfold MasterController.dispatchWhole
      rw [if_pos crashed]
      exact .refl agvId m
  | false =>
      have moved := dispatchWhole_local kept other state
      obtain ⟨alive, refs, errors⟩ := dispatchWhole_errors kept starts crashed state
      have updated := keeps.update
      rw [← errors] at updated
      exact
        { agvIds := moved.agvIds
          orders := moved.otherOrders agvId different.symm
          caches := fun ref cache known owner =>
            moved.otherCaches ref cache known (owner ▸ different.symm)
          actions := moved.otherActions agvId different.symm
          entries := fun ref used => moved.otherEntries agvId ref different.symm used
          currentInstantActionsRef := refs
          errors := by
            intro ref used
            cases updated with
            | inl equal => exact .inl equal
            | inr unnamed =>
                refine .inr fun entry member => ⟨unnamed ref used entry member, ?_⟩
                intro nameable
                have updated : (m.updateInstantActionsValidationError
                    (errorsOf state)).IsNameable entry.2.instantActionsRef := by
                  unfold IsNameable at nameable ⊢
                  rw [updateInstantActionsValidationError_set, ← errors]
                  rw [refs] at nameable
                  exact nameable
                exact unnamed ref used entry member
                  (updateInstantActionsValidationError_isNameable updated)
          crashed := alive.trans crashed.symm
          callbacks := moved.callbacksFor different }

/-- Isolation of the callbacks of a vehicle from a State of another vehicle. -/
theorem callbacks_isolated {events : List MasterEvent} (run : MasterRun events m)
    {other : AgvId} (different : other ≠ agvId) {state : State}
    (starts : OrdersStartOnBase m other) (keeps : KeepsErrors m agvId state) :
    (m.dispatchWhole other state).callbacksFor agvId = m.callbacksFor agvId ∧
      ∀ states : List State,
        (states.foldl (·.dispatchWhole agvId ·) (m.dispatchWhole other state)).callbacksFor agvId =
          (states.foldl (·.dispatchWhole agvId ·) m).callbacksFor agvId := by
  have kept : Kept m := ⟨CacheBooks.of_run run, Owned.of_run run⟩
  have same := SameFor.of_otherState kept different starts keeps
  exact ⟨same.callbacks, fun states => (same.foldl_dispatchWhole kept states).callbacks⟩

/-! ## Two vehicles -/

def otherVehicle : AgvId where
  manufacturer := "manufacturer"
  serialNumber := "002"

def startCharging (actionId : String) : Action where
  actionId := actionId
  actionType := "startCharging"
  blockingType := .soft

/-- The error of a vehicle that has received invalid instant actions. -/
def invalidInstantActions : Error where
  errorType := ErrorType.instantActionValidation
  errorLevel := .warning
  errorReferences := some
    [{ referenceKey := "topic", referenceValue := .str Topic.instantActions },
      { referenceKey := "headerId", referenceValue := .str "1" }]

def rejectingState : State :=
  { completedState with errors := [{ ref := 0, error := invalidInstantActions }] }

/-- The first message of instant actions has been rejected by the vehicle, the
second one has just been published. -/
def secondMessage : List MasterEvent :=
  [.initiateInstantActions vehicle [startCharging "first"] 0,
    .instantActionsPublished
      { agvId := vehicle, actionStateCaches := 0, actions := [startCharging "first"],
        instantActionsRef := 1 } true,
    .state vehicle rejectingState, .continueDispatch, .continueDispatch,
    .initiateInstantActions vehicle [startCharging "second"] 0,
    .instantActionsPublished
      { agvId := vehicle, actionStateCaches := 1, actions := [startCharging "second"],
        instantActionsRef := 2 } true]

/-- A State without errors that arrives from another vehicle makes the earlier
error count as that of the second message. -/
theorem not_callbacks_isolated :
    ∃ m, MasterRun secondMessage m ∧ m.dispatching = none ∧ m.crashed = false ∧
      OrdersStartOnBase m otherVehicle ∧
      (m.dispatchWhole vehicle rejectingState).callbacksFor vehicle = m.callbacksFor vehicle ∧
      ((m.dispatchWhole otherVehicle completedState).dispatchWhole vehicle
          rejectingState).callbacksFor vehicle =
        m.callbacksFor vehicle ++
          [.instantActionError
            { agvId := vehicle
              action := startCharging "second"
              eventHandler := 0
              instantActionsRef := 2 } invalidInstantActions] := by
  obtain ⟨m, run, passed⟩ := MasterRun.exists_of_execute secondMessage
    (fun m => m.dispatching.isNone && !m.crashed && m.currentOrders.isEmpty &&
      decide ((m.dispatchWhole vehicle rejectingState).callbacksFor vehicle =
        m.callbacksFor vehicle) &&
      decide (((m.dispatchWhole otherVehicle completedState).dispatchWhole vehicle
          rejectingState).callbacksFor vehicle =
        m.callbacksFor vehicle ++
          [.instantActionError
            { agvId := vehicle
              action := startCharging "second"
              eventHandler := 0
              instantActionsRef := 2 } invalidInstantActions]))
    (by decide)
  simp only [Bool.and_eq_true, decide_eq_true_eq, Bool.not_eq_true', Option.isNone_iff_eq_none,
    List.isEmpty_iff] at passed
  obtain ⟨⟨⟨⟨idle, alive⟩, noOrders⟩, alone⟩, disturbed⟩ := passed
  refine ⟨m, run, idle, alive, ?_, alone, disturbed⟩
  intro orderId orderUpdateId ref cache found known
  simp [getOrderStateCache, noOrders] at found

/-- The other vehicle has an order, and its State reports no fewer and no more
validation errors than the one before. -/
theorem callbacks_isolated_of_orderState :
    ∃ m, MasterRun
        [.assignOrder otherVehicle (edgeOrder true) 0, .orderPublished 0 true,
          .initiateInstantActions vehicle [startCharging "first"] 1,
          .instantActionsPublished
            { agvId := vehicle, actionStateCaches := 0, actions := [startCharging "first"],
              instantActionsRef := 1 } true] m ∧
      (m.dispatchWhole otherVehicle completedState).notifications ≠ m.notifications ∧
      (m.dispatchWhole otherVehicle completedState).callbacksFor vehicle =
        m.callbacksFor vehicle ∧
      ∀ states : List State,
        (states.foldl (·.dispatchWhole vehicle ·)
            (m.dispatchWhole otherVehicle completedState)).callbacksFor vehicle =
          (states.foldl (·.dispatchWhole vehicle ·) m).callbacksFor vehicle := by
  obtain ⟨m, run, passed⟩ := MasterRun.exists_of_execute
    [.assignOrder otherVehicle (edgeOrder true) 0, .orderPublished 0 true,
      .initiateInstantActions vehicle [startCharging "first"] 1,
      .instantActionsPublished
        { agvId := vehicle, actionStateCaches := 0, actions := [startCharging "first"],
          instantActionsRef := 1 } true]
    (fun m => m.currentInstantActionsValidationErrors.isEmpty &&
      m.orderStateCaches.all (·.combinedOrder.nodes.head?.any (·.released)) &&
      decide ((m.dispatchWhole otherVehicle completedState).notifications ≠ m.notifications))
    (by decide)
  simp only [Bool.and_eq_true, decide_eq_true_eq, List.isEmpty_iff, List.all_eq_true] at passed
  obtain ⟨⟨noErrors, starts⟩, reported⟩ := passed
  have keeps : KeepsErrors m vehicle completedState := .inr (.inl (by rw [noErrors]; rfl))
  have isolated := callbacks_isolated run (by decide : otherVehicle ≠ vehicle)
    (fun _ _ _ cache _ known => starts cache (List.mem_of_getElem? known)) keeps
  exact ⟨m, run, reported, isolated.1, isolated.2⟩

end MasterController

end Vda5050
