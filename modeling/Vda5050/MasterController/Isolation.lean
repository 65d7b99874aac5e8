import Vda5050.MasterController.Ownership

/-!
# Isolation of the vehicles

Two states of the master controller are the same for a vehicle if they agree on
everything that belongs to the vehicle. The dispatch of a State of the vehicle
preserves this, and reports the same callbacks. What the vehicles share are the
validation errors of instant actions.
-/

set_option autoImplicit false

namespace Vda5050

namespace MasterController

/-- A validation error is attributed to the message of this number, or may be
once more errors are reported. -/
def IsNameable (m : MasterController) (instantActionsRef : Nat) : Prop :=
  (∃ current, m.currentInstantActionsRef = some current ∧ instantActionsRef ≤ current) ∨
    ∃ known ∈ m.currentInstantActionsValidationErrors, known.1 = (instantActionsRef : Int)

/-- The same errors are attributed to the messages of some instant actions. -/
def SameErrors (m twin : MasterController)
    (entries : List (String × InstantActionStateCache)) : Prop :=
  twin.currentInstantActionsValidationErrors = m.currentInstantActionsValidationErrors ∨
    ∀ entry ∈ entries, ¬ m.IsNameable entry.2.instantActionsRef ∧
      ¬ twin.IsNameable entry.2.instantActionsRef

/-- Agreement on what belongs to a vehicle. -/
structure SameFor (agvId : AgvId) (m twin : MasterController) : Prop where
  agvIds : twin.agvIds = m.agvIds
  orders : twin.currentOrders.lookup agvId = m.currentOrders.lookup agvId
  caches : ∀ (ref : Nat) (cache : OrderStateCache), m.orderStateCaches[ref]? = some cache →
    cache.agvId = agvId → twin.orderStateCaches[ref]? = some cache
  actions : twin.currentInstantActions.lookup agvId = m.currentInstantActions.lookup agvId
  entries : ∀ ref, m.currentInstantActions.lookup agvId = some ref →
    twin.actionStateCaches[ref]? = m.actionStateCaches[ref]?
  currentInstantActionsRef : twin.currentInstantActionsRef = m.currentInstantActionsRef
  errors : ∀ ref, m.currentInstantActions.lookup agvId = some ref →
    SameErrors m twin ((m.actionStateCaches[ref]?).getD [])
  crashed : twin.crashed = m.crashed
  callbacks : twin.callbacksFor agvId = m.callbacksFor agvId

/-! ## Validation errors -/

private theorem getInstantActionsValidationError_of_not_isNameable {m : MasterController}
    {ref : Nat} (unnamed : ¬ m.IsNameable ref) : m.getInstantActionsValidationError ref = none := by
  unfold getInstantActionsValidationError
  rw [Option.map_eq_none_iff, List.find?_eq_none]
  intro known member equal
  exact unnamed (.inr ⟨known, member, by simpa using equal⟩)

theorem SameErrors.getInstantActionsValidationError {m twin : MasterController}
    {entries : List (String × InstantActionStateCache)} (same : SameErrors m twin entries)
    {entry : String × InstantActionStateCache} (member : entry ∈ entries) :
    twin.getInstantActionsValidationError entry.2.instantActionsRef =
      m.getInstantActionsValidationError entry.2.instantActionsRef := by
  cases same with
  | inl equal =>
      unfold MasterController.getInstantActionsValidationError
      rw [equal]
  | inr unnamed =>
      obtain ⟨first, second⟩ := unnamed entry member
      rw [getInstantActionsValidationError_of_not_isNameable first,
        getInstantActionsValidationError_of_not_isNameable second]

theorem SameErrors.mono {m twin : MasterController}
    {entries fewer : List (String × InstantActionStateCache)} (same : SameErrors m twin entries)
    (subset : ∀ entry ∈ fewer, entry ∈ entries) : SameErrors m twin fewer := by
  cases same with
  | inl equal => exact .inl equal
  | inr unnamed => exact .inr fun entry member => unnamed entry (subset entry member)

/-- Nothing else is changed. -/
theorem updateInstantActionsValidationError_set (m : MasterController) (errors : List Error) :
    m.updateInstantActionsValidationError errors =
      { m with
        currentInstantActionsValidationErrors :=
          (m.updateInstantActionsValidationError errors).currentInstantActionsValidationErrors } := by
  unfold updateInstantActionsValidationError
  split
  · rfl
  · dsimp only
    split <;> rfl

/-- Errors are attributed to the messages published so far. -/
theorem updateInstantActionsValidationError_isNameable {m : MasterController}
    {errors : List Error} {ref : Nat}
    (nameable : (m.updateInstantActionsValidationError errors).IsNameable ref) :
    m.IsNameable ref := by
  cases nameable with
  | inl current =>
      rw [updateInstantActionsValidationError_set] at current
      exact .inl current
  | inr named =>
      obtain ⟨known, member, equal⟩ := named
      unfold updateInstantActionsValidationError at member
      split at member
      · exact .inr ⟨known, member, equal⟩
      · next current present =>
        dsimp only at member
        split at member
        · cases List.mem_append.mp member with
          | inl old => exact .inr ⟨known, old, equal⟩
          | inr new =>
              obtain ⟨entry, -, rfl⟩ := List.mem_map.mp new
              refine .inl ⟨current, present, ?_⟩
              dsimp only at equal
              omega
        · exact .inr ⟨known, List.mem_of_mem_drop member, equal⟩

theorem updateInstantActionsValidationError_congr {m twin : MasterController}
    (refs : twin.currentInstantActionsRef = m.currentInstantActionsRef)
    (errors : twin.currentInstantActionsValidationErrors =
      m.currentInstantActionsValidationErrors) (all : List Error) :
    (twin.updateInstantActionsValidationError all).currentInstantActionsValidationErrors =
      (m.updateInstantActionsValidationError all).currentInstantActionsValidationErrors := by
  unfold updateInstantActionsValidationError
  rw [refs]
  cases m.currentInstantActionsRef with
  | none => exact errors
  | some current =>
      dsimp only
      rw [errors]
      split <;> rfl

/-! ## Callbacks -/

theorem callbacksFor_append {m next : MasterController} {added : List Notification}
    (agvIds : next.agvIds = m.agvIds) (appended : next.notifications = m.notifications ++ added)
    (agvId : AgvId) :
    next.callbacksFor agvId =
      m.callbacksFor agvId ++ added.filter (·.isFor m.agvIds agvId) := by
  unfold callbacksFor
  rw [agvIds, appended, List.filter_append]

namespace SameFor

variable {agvId : AgvId} {m twin : MasterController}

theorem refl (agvId : AgvId) (m : MasterController) : SameFor agvId m m where
  agvIds := rfl
  orders := rfl
  caches := fun _ _ known _ => known
  actions := rfl
  entries := fun _ _ => rfl
  currentInstantActionsRef := rfl
  errors := fun _ _ => .inl rfl
  crashed := rfl
  callbacks := rfl

theorem getOrderStateCache (same : SameFor agvId m twin) (orderId : String)
    (orderUpdateId : Nat) :
    twin.getOrderStateCache agvId orderId orderUpdateId =
      m.getOrderStateCache agvId orderId orderUpdateId := by
  unfold MasterController.getOrderStateCache
  rw [same.orders]

theorem isOrderCanceling (same : SameFor agvId m twin) (state : State)
    (cancelStatus : List ActionStatus) :
    twin.isOrderCanceling agvId state cancelStatus =
      m.isOrderCanceling agvId state cancelStatus := by
  unfold MasterController.isOrderCanceling
  rw [same.actions]
  cases used : m.currentInstantActions.lookup agvId with
  | none => rfl
  | some ref => rw [Option.bind_some, Option.bind_some, same.entries ref used]

/-! ## Elementary operations -/

/-- The same callbacks are reported. -/
theorem report (same : SameFor agvId m twin) (added : List Notification) :
    SameFor agvId { m with notifications := m.notifications ++ added }
      { twin with notifications := twin.notifications ++ added } :=
  { same with
    callbacks := by
      have earlier := same.callbacks
      unfold callbacksFor at earlier ⊢
      change (twin.notifications ++ added).filter (·.isFor twin.agvIds agvId) =
        (m.notifications ++ added).filter (·.isFor m.agvIds agvId)
      rw [List.filter_append, List.filter_append, earlier, same.agvIds] }

theorem notify (same : SameFor agvId m twin) (notification : Notification) :
    SameFor agvId (m.notify notification) (twin.notify notification) :=
  same.report [notification]

theorem throwTypeError (same : SameFor agvId m twin) :
    SameFor agvId m.throwTypeError twin.throwTypeError :=
  { same with crashed := rfl }

theorem updateCache (same : SameFor agvId m twin) {ref : Nat} {cache cache' : OrderStateCache}
    (known : m.orderStateCaches[ref]? = some cache) (owner : cache.agvId = agvId)
    (kept : SameCache cache cache') :
    SameFor agvId (m.updateCache ref cache') (twin.updateCache ref cache') := by
  have first := LocalTo.updateCache known owner kept
  have second := LocalTo.updateCache (same.caches ref cache known owner) owner kept
  have agvIds : (twin.updateCache ref cache').agvIds = (m.updateCache ref cache').agvIds := by
    rw [first.agvIds, second.agvIds, same.agvIds]
  refine { same with agvIds := agvIds, caches := ?_, callbacks := ?_ }
  · intro other otherCache present otherOwner
    by_cases equal : other = ref
    · subst equal
      rw [updateCache_getElem m cache' known] at present
      rw [updateCache_getElem twin cache' (same.caches other cache known owner)]
      exact present
    · unfold MasterController.updateCache at present ⊢
      rw [List.getElem?_set_ne (Ne.symm equal)] at present ⊢
      exact same.caches other otherCache present otherOwner
  · unfold callbacksFor
    rw [first.agvIds, second.agvIds]
    exact same.callbacks

theorem deleteOrderStateCache (same : SameFor agvId m twin) (orderId : String)
    (orderUpdateId : Nat) :
    SameFor agvId (m.deleteOrderStateCache agvId orderId orderUpdateId)
      (twin.deleteOrderStateCache agvId orderId orderUpdateId) := by
  unfold MasterController.deleteOrderStateCache
  rw [same.orders]
  cases current : m.currentOrders.lookup agvId with
  | none => exact same
  | some orders =>
      dsimp only
      cases orders.caches.lookup (orderId, orderUpdateId) with
      | none => exact same
      | some ref =>
          refine { same with orders := ?_ }
          dsimp only
          split
          · rw [lookup_deleteEntry, lookup_deleteEntry, if_pos rfl, if_pos rfl]
          · rw [lookup_setEntry, lookup_setEntry, if_pos rfl, if_pos rfl]

theorem removeOrderStateCache (same : SameFor agvId m twin) {ref : Nat} {cache : OrderStateCache}
    (known : m.orderStateCaches[ref]? = some cache) (owner : cache.agvId = agvId)
    (deleteLastCache : Bool) :
    SameFor agvId (m.removeOrderStateCache ref deleteLastCache)
      (twin.removeOrderStateCache ref deleteLastCache) := by
  unfold MasterController.removeOrderStateCache
  rw [known, same.caches ref cache known owner]
  have forgotten : SameCache cache { cache with lastCache := none } := ⟨rfl, rfl, by simp⟩
  subst owner
  dsimp only
  split
  · exact (same.updateCache known rfl forgotten).deleteOrderStateCache _ _
  · exact same.deleteOrderStateCache _ _

theorem setActionStateCaches (same : SameFor agvId m twin) (ref : Nat)
    {entries : List (String × InstantActionStateCache)} (errors : SameErrors m twin entries) :
    SameFor agvId (m.setActionStateCaches ref entries) (twin.setActionStateCaches ref entries) :=
  { same with
    entries := by
      intro other used
      have equal := same.entries other used
      unfold MasterController.setActionStateCaches
      by_cases here : ref = other
      · subst here
        rw [List.getElem?_set_self', List.getElem?_set_self', equal]
      · rw [List.getElem?_set_ne here, List.getElem?_set_ne here]
        exact equal
    errors := by
      intro other used
      have earlier := same.errors other used
      unfold MasterController.setActionStateCaches
      by_cases here : ref = other
      · subst here
        dsimp only
        rw [List.getElem?_set_self']
        cases m.actionStateCaches[ref]? with
        | none => exact .inr (by simp)
        | some old => exact errors
      · dsimp only
        rw [List.getElem?_set_ne here]
        exact earlier }

theorem deleteInstantActions (same : SameFor agvId m twin) :
    SameFor agvId { m with currentInstantActions := deleteEntry agvId m.currentInstantActions }
      { twin with currentInstantActions := deleteEntry agvId twin.currentInstantActions } := by
  have gone : ∀ entries : List (AgvId × Nat), (deleteEntry agvId entries).lookup agvId = none := by
    intro entries
    rw [lookup_deleteEntry, if_pos rfl]
  refine { same with actions := ?_, entries := ?_, errors := ?_ }
  · dsimp only
    rw [gone, gone]
  · intro ref used
    dsimp only at used
    rw [gone] at used
    cases used
  · intro ref used
    dsimp only at used
    rw [gone] at used
    cases used

theorem removeInstantActionStateCache (same : SameFor agvId m twin)
    {cache : InstantActionStateCache} (owner : cache.agvId = agvId) :
    SameFor agvId (m.removeInstantActionStateCache cache)
      (twin.removeInstantActionStateCache cache) := by
  subst owner
  unfold MasterController.removeInstantActionStateCache
  rw [same.actions]
  cases used : m.currentInstantActions.lookup cache.agvId with
  | none => exact same
  | some ref =>
      dsimp only
      rw [same.entries ref used]
      have removed : SameErrors m twin
          (deleteEntry cache.action.actionId ((m.actionStateCaches[ref]?).getD [])) :=
        (same.errors ref used).mono fun _ => List.mem_of_mem_filter
      split
      · exact (same.setActionStateCaches ref removed).deleteInstantActions
      · exact same.setActionStateCaches ref removed

/-! ## Orders -/

/-- The chain of caches of a vehicle is followed in the same way. -/
theorem findActiveCache (same : SameFor agvId m twin) (owned : Owned m) {fuel : Nat}
    {start : Option Nat} (owner : ∀ ref, start = some ref → m.agvIds[ref]? = some agvId) :
    twin.findActiveCache agvId fuel start = m.findActiveCache agvId fuel start := by
  induction fuel generalizing start with
  | zero => rfl
  | succ fuel ih =>
      cases start with
      | none => rfl
      | some ref =>
          obtain ⟨cache, known, cacheOwner⟩ : ∃ cache, m.orderStateCaches[ref]? = some cache ∧
              cache.agvId = agvId := by
            have found := owner ref rfl
            rw [agvIds_getElem?] at found
            exact Option.map_eq_some_iff.mp found
          unfold MasterController.findActiveCache
          rw [known, same.caches ref cache known cacheOwner]
          dsimp only
          rw [same.getOrderStateCache]
          split
          · rfl
          · apply ih
            intro last points
            rw [← cacheOwner]
            exact owned.lastCache known points

theorem getLastActiveOrderStateCache (same : SameFor agvId m twin) (owned : Owned m) {ref : Nat}
    {cache : OrderStateCache} (known : m.orderStateCaches[ref]? = some cache)
    (owner : cache.agvId = agvId) :
    twin.getLastActiveOrderStateCache cache = m.getLastActiveOrderStateCache cache := by
  subst owner
  have length : twin.orderStateCaches.length = m.orderStateCaches.length := by
    have lengths := congrArg List.length same.agvIds
    simpa [MasterController.agvIds] using lengths
  unfold MasterController.getLastActiveOrderStateCache
  rw [length]
  exact same.findActiveCache owned fun last points => owned.lastCache known points

theorem stitchOntoActiveOrder (same : SameFor agvId m twin) (owned : Owned m) {ref : Nat}
    {cache : OrderStateCache} (known : m.orderStateCaches[ref]? = some cache)
    (owner : cache.agvId = agvId) :
    m.stitchOntoActiveOrder ref cache = none ∧ twin.stitchOntoActiveOrder ref cache = none ∨
      ∃ next twinNext cache', m.stitchOntoActiveOrder ref cache = some (next, cache') ∧
        twin.stitchOntoActiveOrder ref cache = some (twinNext, cache') ∧
        SameFor agvId next twinNext := by
  unfold MasterController.stitchOntoActiveOrder
  rw [same.getLastActiveOrderStateCache owned known owner]
  cases active : m.getLastActiveOrderStateCache cache with
  | none => exact .inr ⟨m, twin, cache, rfl, rfl, same⟩
  | some lastRef =>
      obtain ⟨lastCache, present, current⟩ := findActiveCache_spec m active
      obtain ⟨found, also, lastOwner⟩ := owned.getOrderStateCache current
      obtain rfl := Option.some.inj (present.symm.trans also)
      rw [owner] at lastOwner
      simp only [present, same.caches lastRef lastCache present lastOwner]
      cases cache.combinedOrder.nodes.head? with
      | none => exact .inl ⟨rfl, rfl⟩
      | some firstNode =>
          cases lastBaseEnd lastCache.combinedOrder with
          | none => exact .inl ⟨rfl, rfl⟩
          | some baseEnd =>
              refine .inr ⟨_, _, _, rfl, rfl, ?_⟩
              have kept := stitch_same cache lastCache firstNode baseEnd
              have updated := same.updateCache known owner kept
              have moved := LocalTo.updateCache known owner kept
              have stillThere : ∃ last, (m.updateCache ref
                  (cache.stitch lastCache firstNode baseEnd)).orderStateCaches[lastRef]? =
                    some last ∧ last.agvId = agvId := by
                have owners := congrArg (·[lastRef]?) moved.agvIds
                rw [agvIds_getElem?, agvIds_getElem?, present, Option.map_some, lastOwner] at owners
                exact Option.map_eq_some_iff.mp owners
              obtain ⟨last, there, stillOwner⟩ := stillThere
              exact updated.removeOrderStateCache there stillOwner true

theorem tracked (same : SameFor agvId m twin) {ref : Nat} {cache : OrderStateCache}
    {d : Dispatch} (known : m.orderStateCaches[ref]? = some cache) (owner : cache.agvId = agvId)
    (kept : Tracked cache d.cache) :
    SameFor agvId (m.tracked ref d) (twin.tracked ref d) :=
  (same.updateCache known owner kept.same).report d.notifications

theorem reportOrderProcessed (same : SameFor agvId m twin) {ref : Nat} {cache : OrderStateCache}
    (known : m.orderStateCaches[ref]? = some cache) (owner : cache.agvId = agvId)
    (state : State) :
    SameFor agvId (m.reportOrderProcessed ref cache state)
      (twin.reportOrderProcessed ref cache state) := by
  subst owner
  unfold MasterController.reportOrderProcessed
  dsimp only
  rw [same.isOrderCanceling]
  split
  · have kept : SameCache cache { cache with isOrderProcessedHandlerInvoked := true } :=
      ⟨rfl, rfl, fun _ => id⟩
    have updated := same.updateCache known rfl kept
    have here := updateCache_getElem m { cache with isOrderProcessedHandlerInvoked := true } known
    split
    · exact updated.notify _
    · exact (updated.removeOrderStateCache here rfl true).notify _
  · exact same

theorem dispatchOrderState (same : SameFor agvId m twin) (books : CacheBooks m)
    (owned : Owned m) {ref : Nat} {cache : OrderStateCache}
    (known : m.orderStateCaches[ref]? = some cache) (owner : cache.agvId = agvId)
    (state : State) :
    SameFor agvId (m.dispatchOrderState state ref) (twin.dispatchOrderState state ref) := by
  have twinKnown := same.caches ref cache known owner
  rcases same.stitchOntoActiveOrder owned known owner with
    ⟨failed, alsoFailed⟩ | ⟨next, twinNext, cache', succeeded, alsoSucceeded, stitched⟩
  · unfold MasterController.dispatchOrderState
    simp only [known, twinKnown, failed, alsoFailed]
    exact same.throwTypeError
  · rw [dispatchOrderState_track m known succeeded,
      dispatchOrderState_track twin twinKnown alsoSucceeded]
    have present := stitchOntoActiveOrder_known m books known succeeded
    have moved := stitchOntoActiveOrder_local owned known succeeded
    have stillOwner : cache'.agvId = agvId := by
      have owners := congrArg (·[ref]?) moved.agvIds
      rw [← owner]
      simpa [agvIds_getElem?, known, present] using owners
    dsimp only
    rw [stillOwner, stitched.isOrderCanceling]
    generalize next.isOrderCanceling agvId state [.running, .finished] = isCanceling
    have kept := track_tracked isCanceling ref state cache'
    have tracking := stitched.tracked (d := (track isCanceling ref state cache').1) present
      stillOwner kept
    split
    · have here : (next.tracked ref (track isCanceling ref state cache').1).orderStateCaches[ref]? =
          some (track isCanceling ref state cache').1.cache :=
        updateCache_getElem next _ present
      exact tracking.reportOrderProcessed here (kept.agvId.trans stillOwner) state
    · exact tracking.throwTypeError

end SameFor

/-! ## Instant actions -/

section

variable {agvId : AgvId} {m twin : MasterController}

/-- What the dispatch of orders and of single instant actions leaves as it is. -/
structure SameRest (m next : MasterController) : Prop where
  currentInstantActionsRef : next.currentInstantActionsRef = m.currentInstantActionsRef
  errors : next.currentInstantActionsValidationErrors = m.currentInstantActionsValidationErrors
  crashed : next.crashed = m.crashed
  pendingInstantActions : next.pendingInstantActions = m.pendingInstantActions
  dispatching : next.dispatching = m.dispatching

theorem SameRest.trans {middle next : MasterController} (first : SameRest m middle)
    (second : SameRest middle next) : SameRest m next where
  currentInstantActionsRef :=
    second.currentInstantActionsRef.trans first.currentInstantActionsRef
  errors := second.errors.trans first.errors
  crashed := second.crashed.trans first.crashed
  pendingInstantActions := second.pendingInstantActions.trans first.pendingInstantActions
  dispatching := second.dispatching.trans first.dispatching

private theorem SameRest.isNameable {next : MasterController} (rest : SameRest m next) (ref : Nat) :
    next.IsNameable ref ↔ m.IsNameable ref := by
  unfold IsNameable
  rw [rest.currentInstantActionsRef, rest.errors]

theorem SameErrors.move {next twinNext : MasterController}
    {entries : List (String × InstantActionStateCache)} (same : SameErrors m twin entries)
    (rest : SameRest m next) (twinRest : SameRest twin twinNext) :
    SameErrors next twinNext entries := by
  cases same with
  | inl equal => exact .inl (by rw [rest.errors, twinRest.errors, equal])
  | inr unnamed =>
      refine .inr fun entry member => ?_
      rw [rest.isNameable, twinRest.isNameable]
      exact unnamed entry member

private theorem removeInstantActionStateCache_rest (m : MasterController)
    (cache : InstantActionStateCache) : SameRest m (m.removeInstantActionStateCache cache) := by
  unfold removeInstantActionStateCache
  split
  · exact ⟨rfl, rfl, rfl, rfl, rfl⟩
  · dsimp only
    split <;> exact ⟨rfl, rfl, rfl, rfl, rfl⟩

theorem dispatchInstantAction_rest (ref : Nat) (state : State) (m : MasterController)
    (entry : String × InstantActionStateCache) :
    SameRest m (dispatchInstantAction ref state m entry) := by
  unfold dispatchInstantAction
  split
  · unfold dispatchInstantActionState
    dsimp only
    split
    · exact ⟨rfl, rfl, rfl, rfl, rfl⟩
    · split
      · have removed := removeInstantActionStateCache_rest
        exact ⟨(removed _ _).1, (removed _ _).2, (removed _ _).3, (removed _ _).4,
          (removed _ _).5⟩
      · exact ⟨rfl, rfl, rfl, rfl, rfl⟩
  · split
    · exact (removeInstantActionStateCache_rest m _).trans ⟨rfl, rfl, rfl, rfl, rfl⟩
    · exact ⟨rfl, rfl, rfl, rfl, rfl⟩

private theorem foldl_dispatchInstantAction_rest (ref : Nat) (state : State)
    (entries : List (String × InstantActionStateCache)) (m : MasterController) :
    SameRest m (entries.foldl (dispatchInstantAction ref state) m) := by
  induction entries generalizing m with
  | nil => exact ⟨rfl, rfl, rfl, rfl, rfl⟩
  | cons entry entries ih => exact (dispatchInstantAction_rest ref state m entry).trans (ih _)

/-- The dispatch of the instant actions only updates the validation errors. -/
theorem dispatchInstantActions_rest (m : MasterController) (agvId : AgvId) (state : State) :
    SameRest (m.updateInstantActionsValidationError (errorsOf state))
      (m.dispatchInstantActions agvId state) := by
  unfold dispatchInstantActions
  dsimp only
  split
  · exact ⟨rfl, rfl, rfl, rfl, rfl⟩
  · exact foldl_dispatchInstantAction_rest _ _ _ _

/-- Where the entries of the map at `ref` are also the same. -/
structure SameEntries (agvId : AgvId) (ref : Nat) (m twin : MasterController) : Prop where
  same : SameFor agvId m twin
  entries : twin.actionStateCaches[ref]? = m.actionStateCaches[ref]?
  errors : SameErrors m twin ((m.actionStateCaches[ref]?).getD [])

namespace SameEntries

variable {ref : Nat}

theorem setActionStateCaches (equal : SameEntries agvId ref m twin)
    {entries : List (String × InstantActionStateCache)} (errors : SameErrors m twin entries) :
    SameEntries agvId ref (m.setActionStateCaches ref entries)
      (twin.setActionStateCaches ref entries) where
  same := equal.same.setActionStateCaches ref errors
  entries := by
    unfold MasterController.setActionStateCaches
    rw [List.getElem?_set_self', List.getElem?_set_self', equal.entries]
  errors := by
    unfold MasterController.setActionStateCaches
    dsimp only
    rw [List.getElem?_set_self']
    cases m.actionStateCaches[ref]? with
    | none => exact .inr (by simp)
    | some old => exact errors

theorem notify (equal : SameEntries agvId ref m twin) (notification : Notification) :
    SameEntries agvId ref (m.notify notification) (twin.notify notification) :=
  ⟨equal.same.notify notification, equal.entries, equal.errors⟩

private theorem setOther (equal : SameEntries agvId ref m twin) (other : Nat)
    {entries : List (String × InstantActionStateCache)} (errors : SameErrors m twin entries) :
    SameEntries agvId ref (m.setActionStateCaches other entries)
      (twin.setActionStateCaches other entries) := by
  by_cases here : other = ref
  · subst here
    exact equal.setActionStateCaches errors
  · refine ⟨equal.same.setActionStateCaches other errors, ?_, ?_⟩
    · unfold MasterController.setActionStateCaches
      rw [List.getElem?_set_ne here, List.getElem?_set_ne here]
      exact equal.entries
    · unfold MasterController.setActionStateCaches
      dsimp only
      rw [List.getElem?_set_ne here]
      exact equal.errors

theorem removeInstantActionStateCache (equal : SameEntries agvId ref m twin)
    {cache : InstantActionStateCache} (owner : cache.agvId = agvId) :
    SameEntries agvId ref (m.removeInstantActionStateCache cache)
      (twin.removeInstantActionStateCache cache) := by
  subst owner
  unfold MasterController.removeInstantActionStateCache
  rw [equal.same.actions]
  cases used : m.currentInstantActions.lookup cache.agvId with
  | none => exact equal
  | some current =>
      dsimp only
      rw [equal.same.entries current used]
      have fewer : SameErrors m twin
          (deleteEntry cache.action.actionId ((m.actionStateCaches[current]?).getD [])) :=
        (equal.same.errors current used).mono fun _ => List.mem_of_mem_filter
      have removed := equal.setOther current fewer
      split
      · exact ⟨removed.same.deleteInstantActions, removed.entries, removed.errors⟩
      · exact removed

theorem dispatchInstantAction (equal : SameEntries agvId ref m twin) (state : State)
    {entries : List (String × InstantActionStateCache)} (errors : SameErrors m twin entries)
    {entry : String × InstantActionStateCache} (member : entry ∈ entries)
    (owner : entry.2.agvId = agvId) :
    SameEntries agvId ref (MasterController.dispatchInstantAction ref state m entry)
      (MasterController.dispatchInstantAction ref state twin entry) := by
  unfold MasterController.dispatchInstantAction
  cases state.actionStates.find? (·.actionId = entry.1) with
  | some actionState =>
      dsimp only
      unfold dispatchInstantActionState
      split
      · exact equal
      · dsimp only
        rw [equal.entries]
        have new : SameErrors m twin (setEntry entry.2.action.actionId
            { entry.2 with lastActionState := some actionState }
            ((m.actionStateCaches[ref]?).getD [])) := by
          cases errors with
          | inl same => exact .inl same
          | inr unnamed =>
              cases equal.errors with
              | inl same => exact .inl same
              | inr others =>
                  refine .inr fun other listed => ?_
                  cases Library.mem_put listed with
                  | inl changed =>
                      rw [changed]
                      exact unnamed entry member
                  | inr old => exact others other old
        have set := equal.setActionStateCaches new
        split
        · have same : ({ entry.2 with lastActionState := some actionState } :
              InstantActionStateCache).agvId = agvId := owner
          exact (set.removeInstantActionStateCache same).notify _
        · exact set.notify _
  | none =>
      dsimp only
      rw [errors.getInstantActionsValidationError member]
      split
      · exact (equal.removeInstantActionStateCache owner).notify _
      · exact equal

end SameEntries

end

end MasterController

end Vda5050
