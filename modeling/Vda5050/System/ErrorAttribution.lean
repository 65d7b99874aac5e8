import Vda5050.Library.KeyedList
import Vda5050.MasterController.InstantActions
import Vda5050.MasterController.IsolatedCallbacks
import Vda5050.System.Basic

/-!
# Attribution of validation errors

A validation error of the vehicle does not say which message of instant actions
it is about. The master controller numbers its messages and attributes the new
errors of a State to the messages numbered last. Whether these are the messages
that the vehicle has rejected depends on the order of the steps.
-/

set_option autoImplicit false

namespace Vda5050

namespace System

open MasterController

/-- The error refers to an action. -/
def refersToAction (error : Error) : Bool :=
  (error.errorReferences.getD []).any (·.referenceKey = "actionId")

/-- How many validation errors of a State have not been known before. -/
def newErrorCount (m : MasterController) (errors : List Error) : Nat :=
  (errors.filter isInstantActionsValidationError).length -
    m.currentInstantActionsValidationErrors.length

/-- The message has one of the last numbers. -/
def IsAmongLast (m : MasterController) (count number : Nat) : Prop :=
  ∃ currentRef ∈ m.currentInstantActionsRef.toList,
    number ≤ currentRef ∧ currentRef < number + count

instance (m : MasterController) (count number : Nat) : Decidable (IsAmongLast m count number) :=
  inferInstanceAs (Decidable (∃ _ ∈ _, _ ∧ _))

/-- As many of the messages published last have been rejected as a State has new
validation errors, unless nothing of them is in the cache any more. A message
does not get the number of an error that is still known. -/
def AttributesToRejected (agvId : AgvId) (sys : System) : SystemEvent → Prop
  | .initiateInstantActions _ _ =>
      ∀ known ∈ sys.master.currentInstantActionsValidationErrors,
        known.1 ≠ (sys.master.nextInstantActionsRef : Int)
  | .continueDispatch =>
      ∀ current ∈ sys.master.dispatching.toList, current.errors = [] →
        ∀ entry ∈ sys.master.cachedInstantActions agvId,
          IsAmongLast sys.master (newErrorCount sys.master (errorsOf current.state))
              entry.2.instantActionsRef →
            entry.2.eventHandler ∈ sys.rejectedInstantActions
  | _ => True

instance (agvId : AgvId) (sys : System) (event : SystemEvent) :
    Decidable (AttributesToRejected agvId sys event) :=
  match event with
  | .initiateInstantActions _ _ => inferInstanceAs (Decidable (∀ _ ∈ _, _))
  | .continueDispatch => inferInstanceAs (Decidable (∀ _ ∈ _, _ → ∀ _ ∈ _, _))
  | .assignOrder .. | .orderPublished .. | .instantActionsPublished .. | .dispatchState
  | .receiveOrder _ | .receiveInstantActions _ | .vehicle _ => isTrue trivial

/-- The known validation errors are those of rejected messages, and so are the
errors that have been reported on actions. -/
structure ErrorsAttributed (agvId : AgvId) (sys : System) : Prop where
  books : ActionBooks sys.master agvId
  dispatching : ∀ {current}, sys.master.dispatching = some current → current.agvId = agvId
  known : ∀ entry ∈ sys.master.cachedInstantActions agvId,
    ∀ known ∈ sys.master.currentInstantActionsValidationErrors,
      known.1 = (entry.2.instantActionsRef : Int) →
        entry.2.eventHandler ∈ sys.rejectedInstantActions
  reported : ∀ cache error, .instantActionError cache error ∈ sys.master.notifications →
    !refersToAction error → cache.eventHandler ∈ sys.rejectedInstantActions

variable {agvId : AgvId} {sys next : System}

/-- Known errors are kept, or attributed to the messages numbered last. -/
theorem mem_updatedErrors {m : MasterController} {errors : List Error} {known : Int × Error}
    (member : known ∈
      (m.updateInstantActionsValidationError errors).currentInstantActionsValidationErrors) :
    known ∈ m.currentInstantActionsValidationErrors ∨
      ∀ number : Nat, known.1 = (number : Int) →
        IsAmongLast m (newErrorCount m errors) number := by
  unfold updateInstantActionsValidationError at member
  split at member
  · exact .inl member
  · next currentRef numbered =>
    dsimp only at member
    split at member
    · cases List.mem_append.mp member with
      | inl old => exact .inl old
      | inr new =>
          obtain ⟨⟨error, index⟩, listed, rfl⟩ := List.mem_map.mp new
          have bound := (List.mem_zipIdx' listed).1
          rw [List.length_drop] at bound
          right
          intro number equal
          refine ⟨currentRef, by simp [numbered], ?_⟩
          dsimp only at equal
          unfold newErrorCount
          omega
    · exact .inl (List.mem_of_mem_drop member)

private theorem getInstantActionsValidationError_mem {m : MasterController} {number : Nat}
    {error : Error} (found : m.getInstantActionsValidationError number = some error) :
    ∃ known ∈ m.currentInstantActionsValidationErrors, known.1 = (number : Int) := by
  obtain ⟨known, listed, -⟩ := Option.map_eq_some_iff.mp found
  exact ⟨known, List.mem_of_find?_eq_some listed, by simpa using List.find?_some listed⟩

private theorem refersToAction_of_getActionError {errors : List Error} {actionId : String}
    {asInstantAction : Bool} {error : Error}
    (found : getActionError errors actionId asInstantAction = some error) :
    refersToAction error := by
  have refers := List.find?_some found
  simp only [Bool.and_eq_true, List.any_eq_true] at refers
  obtain ⟨⟨reference, listed, key⟩, -⟩ := refers
  simp only [refersToAction, List.any_eq_true]
  exact ⟨reference, listed, by simpa using (by simpa using key : _ ∧ _).1⟩

/-- Entries are not added, and validation errors neither. -/
theorem ErrorsAttributed.evolve (attributed : ErrorsAttributed agvId sys)
    (owned : Owned next.master)
    (dispatching : ∀ {current}, next.master.dispatching = some current → current.agvId = agvId)
    (evolved : Evolved (sys.master.cachedInstantActions agvId)
      (next.master.cachedInstantActions agvId))
    (errors : next.master.currentInstantActionsValidationErrors =
      sys.master.currentInstantActionsValidationErrors)
    (reported : ∀ cache error, .instantActionError cache error ∈ next.master.notifications →
      .instantActionError cache error ∈ sys.master.notifications)
    (rejected : sys.rejectedInstantActions ⊆ next.rejectedInstantActions) :
    ErrorsAttributed agvId next where
  books := evolved.books owned attributed.books
  dispatching := dispatching
  known := by
    intro entry member known listed same
    obtain ⟨earlier, cached, last, rfl⟩ := evolved.origin entry member
    exact rejected (attributed.known earlier cached known (errors ▸ listed) same)
  reported cache error member general :=
    rejected (attributed.reported cache error (reported cache error member) general)

/-- The instant actions of the vehicle are looked up in a State. -/
theorem ErrorsAttributed.dispatchInstantActions (attributed : ErrorsAttributed agvId sys)
    (owned : Owned next.master) {dispatching : Option Dispatching} {middle : MasterController}
    (same : SameActions { sys.master with dispatching := dispatching } middle) {state : State}
    (performed : next.master = middle.dispatchInstantActions agvId state)
    (still : ∀ {current}, dispatching = some current → current.agvId = agvId)
    (fits : ∀ entry ∈ sys.master.cachedInstantActions agvId,
      IsAmongLast sys.master (newErrorCount sys.master (errorsOf state))
          entry.2.instantActionsRef →
        entry.2.eventHandler ∈ sys.rejectedInstantActions)
    (books : ActionBooks middle agvId)
    (rejected : next.rejectedInstantActions = sys.rejectedInstantActions) :
    ErrorsAttributed agvId next ∧
      ∀ entry ∈ sys.master.cachedInstantActions agvId,
        entry.1 ∉ (next.master.cachedInstantActions agvId).map (·.1) →
        (state.actionStates.find? (·.actionId = entry.1)).any (·.actionStatus.isEnded) ∨
          (getActionError (errorsOf state) entry.1 true).isSome ∨
          entry.2.eventHandler ∈ sys.rejectedInstantActions := by
  obtain ⟨ref, dispatched⟩ := books.dispatchInstantActions state
  rw [← performed] at dispatched
  have cached : (middle.updateInstantActionsValidationError
      (errorsOf state)).cachedInstantActions agvId = sys.master.cachedInstantActions agvId := by
    rw [updateInstantActionsValidationError_set]
    exact same.cachedInstantActions agvId
  have numbers : ∀ number, IsAmongLast middle (newErrorCount middle (errorsOf state)) number →
      IsAmongLast sys.master (newErrorCount sys.master (errorsOf state)) number := by
    intro number
    simp only [IsAmongLast, newErrorCount, same.currentInstantActionsRef, same.errors]
    exact id
  have updated : ∀ entry ∈ sys.master.cachedInstantActions agvId,
      ∀ known ∈ (middle.updateInstantActionsValidationError
        (errorsOf state)).currentInstantActionsValidationErrors,
      known.1 = (entry.2.instantActionsRef : Int) →
        entry.2.eventHandler ∈ sys.rejectedInstantActions := by
    intro entry member known listed equal
    cases mem_updatedErrors listed with
    | inl old => exact attributed.known entry member known (same.errors ▸ old) equal
    | inr new => exact fits entry member (numbers _ (new _ equal))
  have named : ∀ entry ∈ sys.master.cachedInstantActions agvId, ∀ error,
      (middle.updateInstantActionsValidationError
        (errorsOf state)).getInstantActionsValidationError entry.2.instantActionsRef = some error →
      entry.2.eventHandler ∈ sys.rejectedInstantActions := by
    intro entry member error found
    obtain ⟨known, listed, equal⟩ := getInstantActionsValidationError_mem found
    exact updated entry member known listed equal
  have evolved := dispatched.evolved
  have removed := dispatched.removed
  have reported := dispatched.reported
  rw [cached] at evolved removed reported
  constructor
  · constructor
    · exact evolved.books owned attributed.books
    · intro current found
      rw [dispatched.dispatching, updateInstantActionsValidationError_set] at found
      exact still (same.dispatching.symm.trans found)
    · intro entry member known listed equal
      obtain ⟨earlier, present, last, rfl⟩ := evolved.origin entry member
      rw [rejected]
      exact updated earlier present known (dispatched.errors ▸ listed) equal
    · intro cache error member general
      rw [rejected]
      rcases reported cache error member with old | ⟨entry, present, rfl, refers | found⟩
      · rw [updateInstantActionsValidationError_set] at old
        cases same.reported _ old with
        | inl old => exact attributed.reported cache error old general
        | inr other => cases other
      · rw [refersToAction_of_getActionError refers] at general
        cases general
      · exact named entry present error found
  · intro entry member lost
    obtain ⟨other, present, key, reason⟩ := removed entry.1 (List.mem_map_of_mem member) lost
    have equal : other = entry :=
      Library.eq_of_key (·.1) attributed.books.unique present member key
    subst equal
    rcases reason with ended | refers | found
    · exact .inl ended
    · exact .inr (.inl refers)
    · obtain ⟨error, found⟩ := Option.isSome_iff_exists.mp found
      exact .inr (.inr (named other present error found))

/-! ## Steps -/

@[simp] theorem send_rejectedInstantActions (agvId : AgvId) (sys : System) (event : SystemEvent) :
    (sys.send agvId event).rejectedInstantActions = sys.rejectedInstantActions := by
  cases event with
  | assignOrder message sent =>
      simp only [send, sendOrder]
      split
      · split <;> rfl
      · rfl
  | _ => rfl

private theorem receive_rejectedInstantActions (sys : System) (vehicle : Config)
    (event : SystemEvent) :
    sys.rejectedInstantActions ⊆ (sys.receive vehicle event).rejectedInstantActions := by
  cases event with
  | receiveOrder =>
      simp only [receive]
      split <;> exact List.Subset.refl _
  | receiveInstantActions =>
      simp only [receive]
      split
      · exact List.Subset.refl _
      · dsimp only
        split
        · exact List.subset_append_left _ _
        · exact List.Subset.refl _
  | _ => exact List.Subset.refl _

theorem ErrorsAttributed.initial (limit : Nat) :
    ErrorsAttributed agvId (System.initial limit) where
  books := ⟨Owned.initial, by simp [System.initial, cachedInstantActions],
    by simp [System.initial, cachedInstantActions]⟩
  dispatching := by simp [System.initial]
  known := by simp [System.initial]
  reported := by simp [System.initial]

/-- A new message has a number of its own. -/
theorem ErrorsAttributed.initiateInstantActions (attributed : ErrorsAttributed agvId sys)
    {actions : List Action}
    (performed : next.master =
      sys.master.initiateInstantActions agvId actions sys.initiated)
    (owned : Owned next.master)
    (fresh : ∀ known ∈ sys.master.currentInstantActionsValidationErrors,
      known.1 ≠ (sys.master.nextInstantActionsRef : Int))
    (rejected : next.rejectedInstantActions = sys.rejectedInstantActions) :
    ErrorsAttributed agvId next := by
  have cached := cachedInstantActions_initiate attributed.books.owned agvId actions sys.initiated
  rw [← performed] at cached
  have kept : next.master.dispatching = sys.master.dispatching ∧
      next.master.currentInstantActionsValidationErrors =
        sys.master.currentInstantActionsValidationErrors ∧
      next.master.notifications = sys.master.notifications := by
    rw [performed]
    unfold MasterController.initiateInstantActions
    cases sys.master.currentInstantActions.lookup agvId with
    | none => exact ⟨rfl, rfl, rfl⟩
    | some ref => exact ⟨rfl, rfl, rfl⟩
  obtain ⟨dispatching, errors, notifications⟩ := kept
  constructor
  · constructor
    · exact owned
    · intro entry member
      rw [cached] at member
      rcases mem_putActions actions member with old | ⟨action, -, rfl⟩
      · exact attributed.books.keyed entry old
      · rfl
    · rw [cached]
      exact nodup_keys_putActions actions attributed.books.unique
  · rw [dispatching]
    exact attributed.dispatching
  · intro entry member known listed equal
    rw [errors] at listed
    rw [cached] at member
    rw [rejected]
    rcases mem_putActions actions member with old | ⟨action, -, rfl⟩
    · exact attributed.known entry old known listed equal
    · exact absurd equal (fresh known listed)
  · rw [notifications, rejected]
    exact attributed.reported

/-- An error of the State is looked at, or its instant actions are. -/
theorem ErrorsAttributed.continueDispatch (attributed : ErrorsAttributed agvId sys)
    (books : CacheBooks sys.master) (fits : AttributesToRejected agvId sys .continueDispatch)
    {current : Dispatching} (dispatching : sys.master.dispatching = some current)
    (performed : next.master = sys.master.continueDispatch)
    (rejected : next.rejectedInstantActions = sys.rejectedInstantActions) :
    ErrorsAttributed agvId next ∧
      ∀ entry ∈ sys.master.cachedInstantActions agvId,
        entry.1 ∉ (next.master.cachedInstantActions agvId).map (·.1) →
        (current.state.actionStates.find? (·.actionId = entry.1)).any (·.actionStatus.isEnded) ∨
          (getActionError (errorsOf current.state) entry.1 true).isSome ∨
          entry.2.eventHandler ∈ sys.rejectedInstantActions := by
  have owned : Owned next.master := by
    rw [performed]
    exact perform_owned books attributed.books.owned .continueDispatch
  have same := attributed.dispatching dispatching
  subst same
  -- Nothing is removed as long as no instant action has been looked at.
  have kept : ∀ dispatching : Option Dispatching,
      (∀ {later}, dispatching = some later → later.agvId = current.agvId) →
      SameActions { sys.master with dispatching := dispatching } next.master →
      ErrorsAttributed current.agvId next ∧
        ∀ entry ∈ sys.master.cachedInstantActions current.agvId,
          entry.1 ∉ (next.master.cachedInstantActions current.agvId).map (·.1) →
          (current.state.actionStates.find? (·.actionId = entry.1)).any
              (·.actionStatus.isEnded) ∨
            (getActionError (errorsOf current.state) entry.1 true).isSome ∨
            entry.2.eventHandler ∈ sys.rejectedInstantActions := by
    intro dispatching still same
    have cached : next.master.cachedInstantActions current.agvId =
        sys.master.cachedInstantActions current.agvId := same.cachedInstantActions current.agvId
    constructor
    · apply attributed.evolve owned
      · intro later found
        exact still (same.dispatching.symm.trans found)
      · rw [cached]
        exact .refl _
      · exact same.errors
      · intro cache error member
        cases same.reported _ member with
        | inl old => exact old
        | inr other => cases other
      · rw [rejected]
        exact List.Subset.refl _
    · intro entry member lost
      rw [cached] at lost
      exact absurd (List.mem_map_of_mem member) lost
  rcases continueDispatch_cases dispatching with ⟨error, errors, -, looking⟩ | ⟨finished, ends⟩
  · apply kept (some { current with errors := errors })
    · intro later found
      rw [← Option.some.inj found]
    · exact performed ▸ looking
  · have order := orderDispatched_same sys.master current
    rcases ends with ⟨crashed, -⟩ | dispatched
    · apply kept none
      · intro later found
        cases found
      · rw [performed, crashed]
        exact order
    · apply attributed.dispatchInstantActions owned order (performed.trans dispatched)
      · intro later found
        cases found
      · intro entry member attributedTo
        exact fits current (by simp [dispatching]) finished entry member attributedTo
      · exact attributed.books.orderDispatched books current
      · exact rejected

/-- Every step attributes validation errors to rejected messages. -/
theorem ErrorsAttributed.step (attributed : ErrorsAttributed agvId sys)
    (books : CacheBooks sys.master) {event : SystemEvent}
    (fits : AttributesToRejected agvId sys event)
    (stepped : sys.step agvId event = some next) : ErrorsAttributed agvId next := by
  rcases step_cases stepped with ⟨happened, atMaster, enabled, rfl⟩ | ⟨happened, -, -, rfl⟩
  · have owned := perform_owned books attributed.books.owned happened
    have rejected := send_rejectedInstantActions agvId sys event
    have others : sys.rejectedInstantActions ⊆ (sys.send agvId event).rejectedInstantActions := by
      rw [rejected]
      exact List.Subset.refl _
    -- What is left of the steps that do not concern instant actions.
    have kept : SameActions sys.master (sys.master.perform happened) →
        ErrorsAttributed agvId
          { sys.send agvId event with master := sys.master.perform happened } := by
      intro same
      apply attributed.evolve owned
      · intro current found
        exact attributed.dispatching (same.dispatching.symm.trans found)
      · rw [same.cachedInstantActions agvId]
        exact .refl _
      · exact same.errors
      · intro cache error member
        cases same.reported _ member with
        | inl old => exact old
        | inr other => cases other
      · exact others
    cases event with
    | assignOrder message sent =>
        obtain rfl := Option.some.inj atMaster
        exact kept (assignOrder_same _ _ _ _)
    | orderPublished ref succeeded =>
        obtain rfl := Option.some.inj atMaster
        exact kept (orderPublished_same _ _ _)
    | initiateInstantActions message sent =>
        obtain rfl := Option.some.inj atMaster
        exact attributed.initiateInstantActions rfl owned fits rfl
    | instantActionsPublished pending succeeded =>
        obtain rfl := Option.some.inj atMaster
        apply attributed.evolve owned
        · intro current found
          apply attributed.dispatching
          rw [← found]
          exact (instantActionsPublished_rest _ pending succeeded).1.symm
        · exact instantActionsPublished_evolved sys.master pending succeeded
        · exact (instantActionsPublished_rest _ pending succeeded).2.1
        · intro cache error member
          rw [← (instantActionsPublished_rest _ pending succeeded).2.2]
          exact member
        · exact others
    | dispatchState =>
        obtain ⟨state, -, rfl⟩ := Option.map_eq_some_iff.mp atMaster
        apply attributed.evolve owned
        · intro current found
          rw [← Option.some.inj found]
        · exact .refl _
        · rfl
        · exact fun _ _ => id
        · exact others
    | continueDispatch =>
        obtain rfl := Option.some.inj atMaster
        cases dispatching : sys.master.dispatching with
        | none => simp [MasterController.enabled, dispatching] at enabled
        | some current =>
            have continued : ErrorsAttributed agvId
                { sys with master := sys.master.continueDispatch } ∧ _ :=
              attributed.continueDispatch books fits dispatching rfl rfl
            exact continued.1
    | receiveOrder | receiveInstantActions | vehicle => cases atMaster
  · have rejected := receive_rejectedInstantActions sys (sys.vehicle.perform happened) event
    apply attributed.evolve
    · rw [receive_master]
      exact attributed.books.owned
    · rw [receive_master]
      exact attributed.dispatching
    · rw [receive_master]
      exact .refl _
    · rw [receive_master]
    · rw [receive_master]
      exact fun _ _ => id
    · exact rejected

/-! ## Runs -/

theorem ErrorsAttributed.of_run {limit : Nat} {events : List SystemEvent}
    (run : SystemRun (AttributesToRejected agvId) agvId limit events sys) :
    ErrorsAttributed agvId sys :=
  run.invariant _ (.initial limit) fun earlier attributed fits stepped => by
    obtain ⟨_, masterRun⟩ := SystemRun.masterRun earlier
    exact attributed.step (CacheBooks.of_run masterRun) fits stepped

end System

end Vda5050
