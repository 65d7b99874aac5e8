import Vda5050.MasterController.Isolation

/-!
# The cached instant actions of a vehicle

What the steps of the master controller do to the map of instant actions of one
vehicle: entries are added by a call of the application only, and the dispatch
of a State removes an entry for one of three reasons.
-/

set_option autoImplicit false

namespace Vda5050

namespace MasterController

variable {agvId : AgvId} {m next : MasterController}

/-- The map in `_currentInstantActions`, empty if there is none. -/
def cachedInstantActions (m : MasterController) (agvId : AgvId) :
    List (String × InstantActionStateCache) :=
  ((m.currentInstantActions.lookup agvId).bind (m.actionStateCaches[·]?)).getD []

/-! ## Changes of the map -/

/-- Entries may be removed, and the last state of their action replaced. -/
structure Evolved (before after : List (String × InstantActionStateCache)) : Prop where
  origin : ∀ entry ∈ after, ∃ earlier ∈ before, ∃ lastActionState,
    entry = (earlier.1, { earlier.2 with lastActionState := lastActionState })
  unique : (before.map (·.1)).Nodup → (after.map (·.1)).Nodup

namespace Evolved

variable {before middle after : List (String × InstantActionStateCache)}

theorem refl (before : List (String × InstantActionStateCache)) : Evolved before before :=
  ⟨fun entry member => ⟨entry, member, entry.2.lastActionState, rfl⟩, id⟩

theorem trans (first : Evolved before middle) (second : Evolved middle after) :
    Evolved before after where
  origin := by
    intro entry member
    obtain ⟨between, known, last, rfl⟩ := second.origin entry member
    obtain ⟨earlier, included, last', rfl⟩ := first.origin between known
    exact ⟨earlier, included, last, rfl⟩
  unique unique := second.unique (first.unique unique)

private theorem of_sublist (fewer : after.Sublist before) : Evolved before after where
  origin entry member := ⟨entry, fewer.subset member, entry.2.lastActionState, rfl⟩
  unique unique := (fewer.map _).nodup unique

theorem deleteEntry (actionId : String) (before : List (String × InstantActionStateCache)) :
    Evolved before (MasterController.deleteEntry actionId before) :=
  of_sublist List.filter_sublist

/-- An entry known from before is put again. -/
theorem setEntry (evolved : Evolved before middle) {entry : String × InstantActionStateCache}
    (member : entry ∈ before) (lastActionState : Option ActionState) :
    Evolved before
      (setEntry entry.1 { entry.2 with lastActionState := lastActionState } middle) where
  origin := by
    intro other included
    cases Library.mem_put included with
    | inl new => exact ⟨entry, member, lastActionState, new⟩
    | inr old => exact evolved.origin other old
  unique unique := Library.nodup_keys_put _ (evolved.unique unique)

end Evolved

/-- The map at `ref` is the current one of the vehicle, unless there is none. -/
def IsMapOf (agvId : AgvId) (ref : Nat) (m : MasterController) : Prop :=
  ∀ {current : Nat}, m.currentInstantActions.lookup agvId = some current → current = ref

private theorem cachedInstantActions_of_lookup {ref : Nat}
    (used : m.currentInstantActions.lookup agvId = some ref) :
    m.cachedInstantActions agvId = (m.actionStateCaches[ref]?).getD [] := by
  simp [cachedInstantActions, used]

private theorem cachedInstantActions_of_none
    (unused : m.currentInstantActions.lookup agvId = none) :
    m.cachedInstantActions agvId = [] := by
  simp [cachedInstantActions, unused]

/-- Updating a map, which is that of the vehicle or of no use. -/
private theorem cachedInstantActions_set {ref : Nat} (isMap : IsMapOf agvId ref m)
    (entries : List (String × InstantActionStateCache)) :
    ((m.setActionStateCaches ref entries).cachedInstantActions agvId = entries ∧
        m.cachedInstantActions agvId = (m.actionStateCaches[ref]?).getD []) ∨
      ((m.setActionStateCaches ref entries).cachedInstantActions agvId = [] ∧
        m.cachedInstantActions agvId = []) := by
  cases used : m.currentInstantActions.lookup agvId with
  | none =>
      have still : (m.setActionStateCaches ref entries).currentInstantActions.lookup agvId = none :=
        used
      exact .inr ⟨cachedInstantActions_of_none still, cachedInstantActions_of_none used⟩
  | some current =>
      obtain rfl := isMap used
      have still : (m.setActionStateCaches current entries).currentInstantActions.lookup agvId =
          some current := used
      rw [cachedInstantActions_of_lookup still, cachedInstantActions_of_lookup used]
      simp only [setActionStateCaches, List.getElem?_set_self']
      cases known : m.actionStateCaches[current]? with
      | none => exact .inr ⟨rfl, rfl⟩
      | some old => exact .inl ⟨rfl, trivial⟩

private theorem cachedInstantActions_notify (m : MasterController) (notification : Notification)
    (agvId : AgvId) :
    (m.notify notification).cachedInstantActions agvId = m.cachedInstantActions agvId := rfl

private theorem cachedInstantActions_delete :
    ({ m with currentInstantActions := deleteEntry agvId m.currentInstantActions } :
      MasterController).cachedInstantActions agvId = [] := by
  simp [cachedInstantActions, lookup_deleteEntry]

private theorem cachedInstantActions_remove {cache : InstantActionStateCache}
    (owner : cache.agvId = agvId) :
    (m.removeInstantActionStateCache cache).cachedInstantActions agvId =
      deleteEntry cache.action.actionId (m.cachedInstantActions agvId) := by
  subst owner
  unfold removeInstantActionStateCache
  cases used : m.currentInstantActions.lookup cache.agvId with
  | none =>
      dsimp only
      rw [cachedInstantActions_of_none used]
      rfl
  | some ref =>
      have isMap : IsMapOf cache.agvId ref m := fun current =>
        Option.some.inj (current.symm.trans used)
      dsimp only
      split
      · next empty =>
        rw [cachedInstantActions_of_lookup used, List.isEmpty_iff.mp empty]
        exact cachedInstantActions_delete
      · cases cachedInstantActions_set isMap
            (deleteEntry cache.action.actionId ((m.actionStateCaches[ref]?).getD [])) with
        | inl set => rw [set.1, set.2]
        | inr none =>
            rw [none.1, none.2]
            rfl

@[simp] theorem setActionStateCaches_notifications (m : MasterController) (ref : Nat)
    (entries : List (String × InstantActionStateCache)) :
    (m.setActionStateCaches ref entries).notifications = m.notifications := rfl

@[simp] theorem removeInstantActionStateCache_notifications (m : MasterController)
    (cache : InstantActionStateCache) :
    (m.removeInstantActionStateCache cache).notifications = m.notifications := by
  unfold removeInstantActionStateCache
  split
  · rfl
  · dsimp only
    split <;> rfl

theorem IsMapOf.removeInstantActionStateCache {ref : Nat} (isMap : IsMapOf agvId ref m)
    (cache : InstantActionStateCache) :
    IsMapOf agvId ref (m.removeInstantActionStateCache cache) := by
  intro current used
  unfold MasterController.removeInstantActionStateCache at used
  split at used
  · exact isMap used
  · dsimp only at used
    split at used
    · dsimp only at used
      rw [lookup_deleteEntry] at used
      split at used
      · cases used
      · exact isMap used
    · exact isMap used

/-! ## The dispatch of a State -/

/-- Why a State removes an instant action from the cache: the action has ended,
or an error refers to it, or a validation error is attributed to its message. -/
def IsRemovedBy (m : MasterController) (state : State)
    (entry : String × InstantActionStateCache) : Prop :=
  (state.actionStates.find? (·.actionId = entry.1)).any (·.actionStatus.isEnded) ∨
    (getActionError (errorsOf state) entry.1 true).isSome ∨
    (m.getInstantActionsValidationError entry.2.instantActionsRef).isSome

/-- Where the loop over the instant actions of a vehicle has come to. -/
structure ActionsDispatched (agvId : AgvId) (ref : Nat) (state : State)
    (entries : List (String × InstantActionStateCache)) (m next : MasterController) : Prop where
  isMap : IsMapOf agvId ref next
  evolved : Evolved (m.cachedInstantActions agvId) (next.cachedInstantActions agvId)
  errors : next.currentInstantActionsValidationErrors = m.currentInstantActionsValidationErrors
  dispatching : next.dispatching = m.dispatching
  removed : ∀ actionId ∈ (m.cachedInstantActions agvId).map (·.1),
    actionId ∉ (next.cachedInstantActions agvId).map (·.1) →
    ∃ entry ∈ entries, entry.1 = actionId ∧ m.IsRemovedBy state entry
  reported : ∀ cache error, .instantActionError cache error ∈ next.notifications →
    .instantActionError cache error ∈ m.notifications ∨
      ∃ entry ∈ entries, cache = entry.2 ∧
        (getActionError (errorsOf state) entry.1 true = some error ∨
          m.getInstantActionsValidationError entry.2.instantActionsRef = some error)

/-- The entry of an action whose state is reported. -/
private theorem dispatchInstantActionState_cached {ref : Nat} (isMap : IsMapOf agvId ref m)
    {entries : List (String × InstantActionStateCache)}
    (evolved : Evolved entries (m.cachedInstantActions agvId)) (state : State)
    {entry : String × InstantActionStateCache} (member : entry ∈ entries)
    (keyed : entry.1 = entry.2.action.actionId) (owner : entry.2.agvId = agvId)
    (actionState : ActionState) :
    IsMapOf agvId ref (m.dispatchInstantActionState ref actionState entry.2 state) ∧
      Evolved entries
        ((m.dispatchInstantActionState ref actionState entry.2 state).cachedInstantActions agvId) ∧
      ∀ actionId ∈ (m.cachedInstantActions agvId).map (·.1),
        actionId ∉ ((m.dispatchInstantActionState ref actionState entry.2
          state).cachedInstantActions agvId).map (·.1) →
        actionId = entry.1 ∧ actionState.actionStatus.isEnded := by
  unfold dispatchInstantActionState
  split
  · exact ⟨isMap, evolved, fun _ known lost => absurd known lost⟩
  · dsimp only
    rw [← keyed]
    generalize put : setEntry entry.1
      ({ entry.2 with lastActionState := some actionState } : InstantActionStateCache)
      ((m.actionStateCaches[ref]?).getD []) = updated
    have known : ∀ actionId ∈ ((m.actionStateCaches[ref]?).getD []).map (·.1),
        actionId ∈ updated.map (·.1) := by
      subst put
      exact fun actionId => Library.mem_keys_put _
    have setMap : IsMapOf agvId ref (m.setActionStateCaches ref updated) := isMap
    have set := cachedInstantActions_set isMap updated
    have evolvedSet : Evolved entries
        ((m.setActionStateCaches ref updated).cachedInstantActions agvId) := by
      rcases set with ⟨after, before⟩ | ⟨after, -⟩
      · rw [after, ← put, ← before]
        exact evolved.setEntry member _
      · rw [after]
        exact .of_sublist (List.nil_sublist _)
    have kept : ∀ actionId ∈ (m.cachedInstantActions agvId).map (·.1),
        actionId ∈ ((m.setActionStateCaches ref updated).cachedInstantActions agvId).map
          (·.1) := by
      rcases set with ⟨after, before⟩ | ⟨-, before⟩
      · rw [after, before]
        exact known
      · simp [before]
    split
    · next ended =>
      have removed : ((m.setActionStateCaches ref updated).removeInstantActionStateCache
          { entry.2 with lastActionState := some actionState }).cachedInstantActions agvId =
          deleteEntry entry.2.action.actionId
            ((m.setActionStateCaches ref updated).cachedInstantActions agvId) :=
        cachedInstantActions_remove owner
      simp only [cachedInstantActions_notify]
      refine ⟨setMap.removeInstantActionStateCache _, ?_, ?_⟩
      · exact removed ▸ evolvedSet.trans (.deleteEntry _ _)
      · intro actionId present lost
        refine ⟨?_, ended⟩
        by_contra different
        obtain ⟨other, listed, rfl⟩ := List.mem_map.mp (kept actionId present)
        have still : other ∈ deleteEntry entry.2.action.actionId
            ((m.setActionStateCaches ref updated).cachedInstantActions agvId) :=
          List.mem_filter.mpr ⟨listed, by simpa [← keyed] using different⟩
        apply lost
        rw [removed]
        exact List.mem_map_of_mem still
    · exact ⟨setMap, evolvedSet, fun actionId present lost => absurd (kept actionId present) lost⟩

/-- The end of an action is not reported as an error of it. -/
private theorem dispatchInstantActionState_errors (m : MasterController) (ref : Nat)
    (actionState : ActionState) (entry : InstantActionStateCache) (state : State)
    {cache : InstantActionStateCache} {error : Error}
    (reported : .instantActionError cache error ∈
      (m.dispatchInstantActionState ref actionState entry state).notifications) :
    .instantActionError cache error ∈ m.notifications := by
  unfold dispatchInstantActionState at reported
  split at reported
  · exact reported
  · dsimp only at reported
    split at reported
    · simpa [notify] using reported
    · simpa [notify] using reported

/-- One step of the loop: the entry is looked up in the State. -/
theorem ActionsDispatched.advance {ref : Nat} {state : State}
    {entries : List (String × InstantActionStateCache)}
    (keyed : ∀ entry ∈ m.cachedInstantActions agvId, entry.1 = entry.2.action.actionId)
    (owners : ∀ entry ∈ m.cachedInstantActions agvId, entry.2.agvId = agvId)
    (dispatched : ActionsDispatched agvId ref state entries m next)
    {entry : String × InstantActionStateCache} (member : entry ∈ m.cachedInstantActions agvId) :
    ActionsDispatched agvId ref state (entries ++ [entry]) m
      (dispatchInstantAction ref state next entry) := by
  have key := keyed entry member
  have owner := owners entry member
  have errors : (dispatchInstantAction ref state next entry).currentInstantActionsValidationErrors =
      m.currentInstantActionsValidationErrors :=
    (dispatchInstantAction_rest ref state next entry).errors.trans dispatched.errors
  have dispatching : (dispatchInstantAction ref state next entry).dispatching = m.dispatching :=
    (dispatchInstantAction_rest ref state next entry).dispatching.trans dispatched.dispatching
  have last : entry ∈ entries ++ [entry] := List.mem_append_right _ List.mem_cons_self
  -- What has been removed or reported before was so by an earlier entry.
  have removedBefore : ∀ actionId ∈ (m.cachedInstantActions agvId).map (·.1),
      actionId ∉ (next.cachedInstantActions agvId).map (·.1) →
      ∃ other ∈ entries ++ [entry], other.1 = actionId ∧ m.IsRemovedBy state other := by
    intro actionId known lost
    obtain ⟨other, listed, reason⟩ := dispatched.removed actionId known lost
    exact ⟨other, List.mem_append_left _ listed, reason⟩
  have reportedBefore : ∀ cache error, .instantActionError cache error ∈ next.notifications →
      .instantActionError cache error ∈ m.notifications ∨
        ∃ other ∈ entries ++ [entry], cache = other.2 ∧
          (getActionError (errorsOf state) other.1 true = some error ∨
            m.getInstantActionsValidationError other.2.instantActionsRef = some error) := by
    intro cache error reported
    rcases dispatched.reported cache error reported with old | ⟨other, listed, reason⟩
    · exact .inl old
    · exact .inr ⟨other, List.mem_append_left _ listed, reason⟩
  have same : next.getInstantActionsValidationError entry.2.instantActionsRef =
      m.getInstantActionsValidationError entry.2.instantActionsRef := by
    simp only [getInstantActionsValidationError, dispatched.errors]
  unfold dispatchInstantAction at errors dispatching ⊢
  cases found : state.actionStates.find? (·.actionId = entry.1) with
  | some actionState =>
      rw [found] at errors dispatching
      dsimp only at errors dispatching ⊢
      obtain ⟨isMap, evolved, lost⟩ := dispatchInstantActionState_cached dispatched.isMap
        dispatched.evolved state member key owner actionState
      refine ⟨isMap, evolved, errors, dispatching, ?_, ?_⟩
      · intro actionId known gone
        by_cases present : actionId ∈ (next.cachedInstantActions agvId).map (·.1)
        · obtain ⟨rfl, ended⟩ := lost actionId present gone
          exact ⟨entry, last, rfl, .inl (by rw [found]; exact ended)⟩
        · exact removedBefore actionId known present
      · intro cache error reported
        exact reportedBefore cache error (dispatchInstantActionState_errors _ _ _ _ _ reported)
  | none =>
      rw [found] at errors dispatching
      dsimp only at errors dispatching ⊢
      rw [same] at errors dispatching ⊢
      cases reason : getActionError (errorsOf state) entry.1 true <|>
          m.getInstantActionsValidationError entry.2.instantActionsRef with
      | none => exact ⟨dispatched.isMap, dispatched.evolved, dispatched.errors,
          dispatched.dispatching, removedBefore, reportedBefore⟩
      | some error =>
          rw [reason] at errors dispatching
          dsimp only at errors dispatching ⊢
          have split : getActionError (errorsOf state) entry.1 true = some error ∨
              m.getInstantActionsValidationError entry.2.instantActionsRef = some error := by
            cases refers : getActionError (errorsOf state) entry.1 true with
            | some other => exact .inl (by simpa [refers] using reason)
            | none => exact .inr (by simpa [refers] using reason)
          have removed : (next.removeInstantActionStateCache entry.2).cachedInstantActions agvId =
              deleteEntry entry.2.action.actionId (next.cachedInstantActions agvId) :=
            cachedInstantActions_remove owner
          unfold dispatchInstantActionError at errors dispatching ⊢
          constructor
          · exact IsMapOf.removeInstantActionStateCache dispatched.isMap entry.2
          · rw [cachedInstantActions_notify, removed]
            exact dispatched.evolved.trans (.deleteEntry _ _)
          · exact errors
          · exact dispatching
          · intro actionId known gone
            rw [cachedInstantActions_notify, removed] at gone
            by_cases present : actionId ∈ (next.cachedInstantActions agvId).map (·.1)
            · by_cases this : actionId = entry.1
              · subst this
                refine ⟨entry, last, rfl, .inr ?_⟩
                cases split with
                | inl refers => exact .inl (by simp [refers])
                | inr attributed => exact .inr (by simp [attributed])
              · obtain ⟨other, listed, rfl⟩ := List.mem_map.mp present
                have still : other ∈ deleteEntry entry.2.action.actionId
                    (next.cachedInstantActions agvId) :=
                  List.mem_filter.mpr ⟨listed, by simpa [← key] using this⟩
                exact absurd (List.mem_map_of_mem still) gone
            · exact removedBefore actionId known present
          · intro cache other reported
            simp only [notify, removeInstantActionStateCache_notifications, List.mem_append,
              List.mem_singleton, Notification.instantActionError.injEq] at reported
            rcases reported with old | ⟨rfl, rfl⟩
            · exact reportedBefore cache other old
            · exact .inr ⟨entry, last, rfl, split⟩

/-! ## Orders -/

/-- What happens to orders does not concern instant actions. -/
structure SameActions (m next : MasterController) : Prop where
  currentInstantActions : next.currentInstantActions = m.currentInstantActions
  actionStateCaches : next.actionStateCaches = m.actionStateCaches
  currentInstantActionsRef : next.currentInstantActionsRef = m.currentInstantActionsRef
  errors : next.currentInstantActionsValidationErrors = m.currentInstantActionsValidationErrors
  dispatching : next.dispatching = m.dispatching
  pendingInstantActions : next.pendingInstantActions = m.pendingInstantActions
  reported : ∀ notification ∈ next.notifications,
    notification ∈ m.notifications ∨ notification.orderCache.isSome

namespace SameActions

variable {middle : MasterController}

theorem refl (m : MasterController) : SameActions m m :=
  ⟨rfl, rfl, rfl, rfl, rfl, rfl, fun _ => .inl⟩

theorem trans (first : SameActions m middle) (second : SameActions middle next) :
    SameActions m next where
  currentInstantActions := second.currentInstantActions.trans first.currentInstantActions
  actionStateCaches := second.actionStateCaches.trans first.actionStateCaches
  currentInstantActionsRef :=
    second.currentInstantActionsRef.trans first.currentInstantActionsRef
  errors := second.errors.trans first.errors
  dispatching := second.dispatching.trans first.dispatching
  pendingInstantActions := second.pendingInstantActions.trans first.pendingInstantActions
  reported := by
    intro notification member
    cases second.reported notification member with
    | inl old => exact first.reported notification old
    | inr new => exact .inr new

theorem cachedInstantActions (same : SameActions m next) (agvId : AgvId) :
    next.cachedInstantActions agvId = m.cachedInstantActions agvId := by
  unfold MasterController.cachedInstantActions
  rw [same.currentInstantActions, same.actionStateCaches]

theorem notify (same : SameActions m next) {notification : Notification}
    (about : notification.orderCache.isSome) : SameActions m (next.notify notification) where
  currentInstantActions := same.currentInstantActions
  actionStateCaches := same.actionStateCaches
  currentInstantActionsRef := same.currentInstantActionsRef
  errors := same.errors
  dispatching := same.dispatching
  pendingInstantActions := same.pendingInstantActions
  reported := by
    intro other member
    cases List.mem_append.mp member with
    | inl old => exact same.reported other old
    | inr new =>
        rw [List.mem_singleton.mp new]
        exact .inr about

theorem updateCache (m : MasterController) (ref : Nat) (cache : OrderStateCache) :
    SameActions m (m.updateCache ref cache) :=
  ⟨rfl, rfl, rfl, rfl, rfl, rfl, fun _ => .inl⟩

theorem removeOrderStateCache (m : MasterController) (ref : Nat) (deleteLastCache : Bool) :
    SameActions m (m.removeOrderStateCache ref deleteLastCache) := by
  obtain ⟨caches, orders, removed⟩ := m.removeOrderStateCache_eq ref deleteLastCache
  rw [removed]
  exact ⟨rfl, rfl, rfl, rfl, rfl, rfl, fun _ => .inl⟩

theorem stitchOntoActiveOrder {ref : Nat} {cache : OrderStateCache}
    {stitched : MasterController × OrderStateCache}
    (succeeded : m.stitchOntoActiveOrder ref cache = some stitched) : SameActions m stitched.1 := by
  unfold MasterController.stitchOntoActiveOrder at succeeded
  split at succeeded
  · obtain rfl := Option.some.inj succeeded
    exact .refl m
  · split at succeeded
    · obtain rfl := Option.some.inj succeeded
      exact .refl m
    · split at succeeded
      · obtain rfl := Option.some.inj succeeded
        exact (updateCache m ref _).trans (removeOrderStateCache _ _ _)
      · cases succeeded

theorem reportOrderProcessed (m : MasterController) (ref : Nat) (cache : OrderStateCache)
    (state : State) : SameActions m (m.reportOrderProcessed ref cache state) := by
  unfold MasterController.reportOrderProcessed
  dsimp only
  split
  · have updated := updateCache m ref { cache with isOrderProcessedHandlerInvoked := true }
    split
    · apply updated.notify
      exact rfl
    · apply (updated.trans (removeOrderStateCache _ ref true)).notify
      exact rfl
  · exact .refl m

theorem tracked (m : MasterController) {ref : Nat} {d : Dispatch} {order : Order}
    {reached : Node → Prop} (about : d.IsAbout ref order reached) :
    SameActions m (m.tracked ref d) where
  currentInstantActions := rfl
  actionStateCaches := rfl
  currentInstantActionsRef := rfl
  errors := rfl
  dispatching := rfl
  pendingInstantActions := rfl
  reported := by
    intro notification member
    cases List.mem_append.mp member with
    | inl old => exact .inl old
    | inr new =>
        have known := (about.progress notification new).orderCache
        exact .inr (by simp [known])

theorem dispatchOrderState (m : MasterController) (state : State) (ref : Nat) :
    SameActions m (m.dispatchOrderState state ref) := by
  cases known : m.orderStateCaches[ref]? with
  | none =>
      simp only [MasterController.dispatchOrderState, known]
      exact .refl m
  | some cache =>
      cases succeeded : m.stitchOntoActiveOrder ref cache with
      | none =>
          simp only [MasterController.dispatchOrderState, known, succeeded]
          exact ⟨rfl, rfl, rfl, rfl, rfl, rfl, fun _ => .inl⟩
      | some stitched =>
          rw [dispatchOrderState_track m known succeeded]
          generalize stitched.1.isOrderCanceling stitched.2.agvId state [.running, .finished] =
            isCanceling
          have tracking := (stitchOntoActiveOrder succeeded).trans
            (tracked stitched.1 (track_isAbout isCanceling ref state stitched.2))
          dsimp only
          split
          · exact tracking.trans (reportOrderProcessed _ _ _ _)
          · exact ⟨tracking.1, tracking.2, tracking.3, tracking.4, tracking.5, tracking.6, tracking.7⟩

theorem dispatchCurrentOrder (m : MasterController) (agvId : AgvId) (state : State) :
    SameActions m (m.dispatchCurrentOrder agvId state) := by
  unfold MasterController.dispatchCurrentOrder
  split
  · exact .refl m
  · exact dispatchOrderState m state _

theorem dispatchError (m : MasterController) (agvId : AgvId) (error : Error) :
    SameActions m (m.dispatchError agvId error) := by
  unfold MasterController.dispatchError
  split
  · exact .refl m
  · apply (removeOrderStateCache m _ false).notify
    exact rfl

end SameActions

/-! ## The instant actions of a State -/

/-- What holds of the cached instant actions of a vehicle: entries are found
under the ids of their actions, which are distinct. -/
structure ActionBooks (m : MasterController) (agvId : AgvId) : Prop where
  owned : Owned m
  keyed : ∀ entry ∈ m.cachedInstantActions agvId, entry.1 = entry.2.action.actionId
  unique : ((m.cachedInstantActions agvId).map (·.1)).Nodup

theorem Owned.cachedInstantActions (owned : Owned m) (agvId : AgvId) :
    ∀ entry ∈ m.cachedInstantActions agvId, entry.2.agvId = agvId := by
  intro entry member
  cases used : m.currentInstantActions.lookup agvId with
  | none =>
      rw [cachedInstantActions_of_none used] at member
      cases member
  | some ref =>
      rw [cachedInstantActions_of_lookup used] at member
      exact owned.actions used entry member

/-- The whole loop, with the validation errors as updated by the State. -/
theorem ActionBooks.dispatchInstantActions (books : ActionBooks m agvId) (state : State) :
    ∃ ref, ActionsDispatched agvId ref state
      ((m.updateInstantActionsValidationError (errorsOf state)).cachedInstantActions agvId)
      (m.updateInstantActionsValidationError (errorsOf state))
      (m.dispatchInstantActions agvId state) := by
  have same : (m.updateInstantActionsValidationError (errorsOf state)).cachedInstantActions agvId =
      m.cachedInstantActions agvId := by
    rw [updateInstantActionsValidationError_set]
    rfl
  unfold MasterController.dispatchInstantActions
  dsimp only
  have keyed := same ▸ books.keyed
  have owners := same ▸ books.owned.cachedInstantActions agvId
  clear same
  generalize m.updateInstantActionsValidationError (errorsOf state) = updated at keyed owners ⊢
  cases used : updated.currentInstantActions.lookup agvId with
  | none =>
      refine ⟨0, ?_, .refl _, rfl, rfl, fun _ known lost => absurd known lost, fun _ _ => .inl⟩
      intro current found
      rw [used] at found
      cases found
  | some ref =>
      have start : ActionsDispatched agvId ref state [] updated updated := by
        refine ⟨?_, .refl _, rfl, rfl, fun _ known lost => absurd known lost, fun _ _ => .inl⟩
        intro current found
        exact Option.some.inj (found.symm.trans used)
      -- Induction on the entries that have not been looked up yet.
      have loop : ∀ (rest done : List (String × InstantActionStateCache))
          (next : MasterController), ActionsDispatched agvId ref state done updated next →
          (∀ entry ∈ rest, entry ∈ updated.cachedInstantActions agvId) →
          ActionsDispatched agvId ref state (done ++ rest) updated
            (rest.foldl (dispatchInstantAction ref state) next) := by
        intro rest
        induction rest with
        | nil =>
            intro done next dispatched _
            rw [List.append_nil]
            exact dispatched
        | cons entry rest ih =>
            intro done next dispatched known
            have advanced := dispatched.advance keyed owners (known entry List.mem_cons_self)
            have finished := ih (done ++ [entry]) _ advanced
              fun other member => known other (List.mem_cons_of_mem _ member)
            rwa [List.append_assoc] at finished
      refine ⟨ref, ?_⟩
      dsimp only
      rw [cachedInstantActions_of_lookup used] at loop ⊢
      exact loop _ [] updated start fun _ => id

/-! ## Calls of the application -/

/-- The actions of a message are put into the map of a vehicle. -/
def putActions (agvId : AgvId) (eventHandler instantActionsRef : Nat) (actions : List Action)
    (entries : List (String × InstantActionStateCache)) :
    List (String × InstantActionStateCache) :=
  actions.foldl
    (fun entries action => setEntry action.actionId
      { agvId := agvId
        action := action
        eventHandler := eventHandler
        instantActionsRef := instantActionsRef } entries) entries

/-- The number of the next message. -/
def nextInstantActionsRef (m : MasterController) : Nat := m.currentInstantActionsRef.elim 1 (· + 1)

theorem mem_putActions {eventHandler instantActionsRef : Nat} (actions : List Action)
    {entries : List (String × InstantActionStateCache)} {entry : String × InstantActionStateCache}
    (member : entry ∈ putActions agvId eventHandler instantActionsRef actions entries) :
    entry ∈ entries ∨ ∃ action ∈ actions, entry =
      (action.actionId,
        { agvId := agvId
          action := action
          eventHandler := eventHandler
          instantActionsRef := instantActionsRef }) := by
  induction actions generalizing entries with
  | nil => exact .inl member
  | cons action actions ih =>
      cases ih member with
      | inl put =>
          cases Library.mem_put put with
          | inl new => exact .inr ⟨action, List.mem_cons_self, new⟩
          | inr old => exact .inl old
      | inr new =>
          obtain ⟨other, listed, equal⟩ := new
          exact .inr ⟨other, List.mem_cons_of_mem _ listed, equal⟩

theorem nodup_keys_putActions {eventHandler instantActionsRef : Nat} (actions : List Action)
    {entries : List (String × InstantActionStateCache)} (unique : (entries.map (·.1)).Nodup) :
    ((putActions agvId eventHandler instantActionsRef actions entries).map (·.1)).Nodup := by
  induction actions generalizing entries with
  | nil => exact unique
  | cons action actions ih => exact ih (Library.nodup_keys_put _ unique)

/-- Initiated actions are added to those in the cache. -/
theorem cachedInstantActions_initiate (owned : Owned m) (agvId : AgvId) (actions : List Action)
    (eventHandler : Nat) :
    (m.initiateInstantActions agvId actions eventHandler).cachedInstantActions agvId =
      putActions agvId eventHandler m.nextInstantActionsRef actions
        (m.cachedInstantActions agvId) := by
  unfold initiateInstantActions
  cases used : m.currentInstantActions.lookup agvId with
  | some ref =>
      have bound := owned.bounded used
      rw [cachedInstantActions_of_lookup used]
      simp only [setActionStateCaches, cachedInstantActions, used, Option.bind_some,
        List.getElem?_set_self bound, Option.getD_some]
      rfl
  | none =>
      rw [cachedInstantActions_of_none used]
      simp only [setActionStateCaches, cachedInstantActions, lookup_setEntry, if_true,
        Option.bind_some]
      rw [List.getElem?_set_self (by simp), Option.getD_some, List.getElem?_concat_length]
      rfl

/-- Actions whose publication fails are removed again. -/
theorem instantActionsPublished_evolved (m : MasterController) (pending : PendingInstantActions)
    (succeeded : Bool) :
    Evolved (m.cachedInstantActions agvId)
      ((m.instantActionsPublished pending succeeded).cachedInstantActions agvId) := by
  have fewer : ∀ (actions : List Action) (entries : List (String × InstantActionStateCache)),
      (actions.foldl (fun entries action => deleteEntry action.actionId entries) entries).Sublist
        entries := by
    intro actions
    induction actions with
    | nil => exact .refl
    | cons action actions ih => exact fun entries => (ih _).trans List.filter_sublist
  cases succeeded with
  | true => exact .refl _
  | false =>
      have shrunk : ∀ entries : List (String × InstantActionStateCache),
          entries.Sublist ((m.actionStateCaches[pending.actionStateCaches]?).getD []) →
          Evolved (m.cachedInstantActions agvId)
            ((m.setActionStateCaches pending.actionStateCaches entries).cachedInstantActions
              agvId) := by
        intro entries sub
        cases used : m.currentInstantActions.lookup agvId with
        | none =>
            have still : (m.setActionStateCaches pending.actionStateCaches
                entries).currentInstantActions.lookup agvId = none := used
            rw [cachedInstantActions_of_none still]
            exact .of_sublist (List.nil_sublist _)
        | some ref =>
            by_cases same : ref = pending.actionStateCaches
            · subst same
              have isMap : IsMapOf agvId pending.actionStateCaches m := fun current =>
                Option.some.inj (current.symm.trans used)
              rcases cachedInstantActions_set isMap entries with ⟨after, before⟩ | ⟨after, -⟩
              · rw [after, before]
                exact .of_sublist sub
              · rw [after]
                exact .of_sublist (List.nil_sublist _)
            · have still : (m.setActionStateCaches pending.actionStateCaches
                  entries).currentInstantActions.lookup agvId = some ref := used
              rw [cachedInstantActions_of_lookup still, cachedInstantActions_of_lookup used,
                setActionStateCaches, List.getElem?_set_ne (Ne.symm same)]
              exact .refl _
      have set := shrunk _ (fewer pending.actions
        ((m.actionStateCaches[pending.actionStateCaches]?).getD []))
      simp only [instantActionsPublished, Bool.false_eq_true, if_false]
      split
      · apply set.trans
        by_cases same : agvId = pending.agvId
        · subst same
          rw [cachedInstantActions_delete]
          exact .of_sublist (List.nil_sublist _)
        · simp only [cachedInstantActions, lookup_deleteEntry, if_neg same]
          exact .refl _
      · exact set

/-! ## Steps -/

theorem SameActions.books (same : SameActions m next) (owned : Owned next)
    (books : ActionBooks m agvId) : ActionBooks next agvId where
  owned := owned
  keyed := same.cachedInstantActions agvId ▸ books.keyed
  unique := same.cachedInstantActions agvId ▸ books.unique

theorem Evolved.books
    (evolved : Evolved (m.cachedInstantActions agvId) (next.cachedInstantActions agvId))
    (owned : Owned next) (books : ActionBooks m agvId) : ActionBooks next agvId where
  owned := owned
  keyed := by
    intro entry member
    obtain ⟨earlier, known, last, rfl⟩ := evolved.origin entry member
    exact books.keyed earlier known
  unique := evolved.unique books.unique

/-- The master controller when all errors of a State have been looked at, and
the State has been dispatched to its order. -/
def orderDispatched (m : MasterController) (current : Dispatching) : MasterController :=
  { m with dispatching := none }.dispatchCurrentOrder current.agvId current.state

theorem orderDispatched_same (m : MasterController) (current : Dispatching) :
    SameActions { m with dispatching := none } (m.orderDispatched current) :=
  .dispatchCurrentOrder _ current.agvId current.state

theorem ActionBooks.orderDispatched (actionBooks : ActionBooks m agvId) (books : CacheBooks m)
    (current : Dispatching) : ActionBooks (m.orderDispatched current) agvId := by
  have waiting : Owned { m with dispatching := none } :=
    ⟨actionBooks.owned.1, actionBooks.owned.2, actionBooks.owned.3, actionBooks.owned.4,
      actionBooks.owned.5⟩
  have waitingBooks : CacheBooks { m with dispatching := none } :=
    ⟨books.keyed, books.older, books.assigned⟩
  have owned := (dispatchCurrentOrder_local waitingBooks waiting current.agvId current.state).owned
    waiting
  exact (orderDispatched_same m current).books owned
    ⟨waiting, actionBooks.keyed, actionBooks.unique⟩

/-- An error is looked at, or the instant actions are looked up in the State,
unless the dispatch of the order ends the process. -/
theorem continueDispatch_cases {current : Dispatching} (dispatching : m.dispatching = some current) :
    (∃ error errors, current.errors = error :: errors ∧
        SameActions { m with dispatching := some { current with errors := errors } }
          m.continueDispatch) ∨
      current.errors = [] ∧
        (m.continueDispatch = m.orderDispatched current ∧ (m.orderDispatched current).crashed ∨
          m.continueDispatch =
            (m.orderDispatched current).dispatchInstantActions current.agvId current.state) := by
  cases remaining : current.errors with
  | cons error errors =>
      refine .inl ⟨error, errors, rfl, ?_⟩
      simp only [continueDispatch, dispatching, remaining]
      exact .dispatchError _ _ _
  | nil =>
      refine .inr ⟨rfl, ?_⟩
      simp only [continueDispatch, dispatching, remaining, dispatchOrderAndActions,
        orderDispatched]
      split
      · next crashed => exact .inl ⟨rfl, crashed⟩
      · exact .inr rfl

theorem assignOrder_same (m : MasterController) (agvId : AgvId) (order : Order)
    (eventHandler : Nat) : SameActions m (m.assignOrder agvId order eventHandler) := by
  unfold assignOrder
  split
  · exact .refl m
  · exact ⟨rfl, rfl, rfl, rfl, rfl, rfl, fun _ => .inl⟩

theorem orderPublished_same (m : MasterController) (ref : Nat) (succeeded : Bool) :
    SameActions m (m.orderPublished ref succeeded) := by
  have same : SameActions m { m with pendingOrders := m.pendingOrders.erase ref } :=
    ⟨rfl, rfl, rfl, rfl, rfl, rfl, fun _ => .inl⟩
  unfold orderPublished
  dsimp only
  split
  · exact same
  · exact same.trans (.removeOrderStateCache _ _ _)

theorem instantActionsPublished_rest (m : MasterController) (pending : PendingInstantActions)
    (succeeded : Bool) :
    (m.instantActionsPublished pending succeeded).dispatching = m.dispatching ∧
      (m.instantActionsPublished pending succeeded).currentInstantActionsValidationErrors =
        m.currentInstantActionsValidationErrors ∧
      (m.instantActionsPublished pending succeeded).notifications = m.notifications := by
  unfold instantActionsPublished
  dsimp only
  split
  · exact ⟨rfl, rfl, rfl⟩
  · split <;> exact ⟨rfl, rfl, rfl⟩

end MasterController

end Vda5050
