import Mathlib.Data.List.Chain
import Vda5050.AgvController.ErrorObjects
import Vda5050.AgvController.OrderUpdates
import Vda5050.MasterController.Machine

/-!
# Numbers of validation errors

How many validation errors of instant actions the AGV controller reports. Only a message
that is rejected as invalid adds one, everything else leaves them or drops some.
-/

set_option autoImplicit false

namespace Vda5050

open AgvController MasterController

def validationErrorCount (errors : List StateError) : Nat :=
  errors.countP fun error => isInstantActionsValidationError error.error

def reportedCounts (states : List State) : List Nat :=
  states.map fun state => validationErrorCount state.errors

def Config.validationErrorCount (c : Config) : Nat :=
  Vda5050.validationErrorCount c.agv.currentState.errors

/-- From one configuration to another, there are fewer and fewer validation errors, also in
the states published meanwhile. -/
def Config.Falls (c next : Config) : Prop :=
  ∃ states, next.published = c.published ++ states ∧
    (c.validationErrorCount :: (reportedCounts states ++ [next.validationErrorCount])).IsChain
      (· ≥ ·)

/-! ## Errors that are no validation errors -/

private theorem isInstantActionsValidationError_of_reference {error : Error} {key : String}
    (other : key = "orderId" ∨ key = "actionId")
    (refers : (error.errorReferences.getD []).any (·.referenceKey = key) = true) :
    isInstantActionsValidationError error = false := by
  unfold isInstantActionsValidationError
  rcases other with rfl | rfl <;> simp [refers]

private theorem isInstantActionsValidationError_createActionError (context : ActionContext)
    (errorType errorDescription : String) (errorRefs : List ErrorReference) :
    isInstantActionsValidationError
      (createActionError context errorType errorDescription errorRefs) = false :=
  isInstantActionsValidationError_of_reference (.inr rfl)
    (by simp [createActionError, textReference])

private theorem isInstantActionsValidationError_createInvalidOrderError {payload : Json}
    {errorDescription : String} {error : Error}
    (created : createInvalidOrderError payload errorDescription = .ok error) :
    isInstantActionsValidationError error = false := by
  unfold createInvalidOrderError at created
  cases headerId : propertyText payload "headerId" with
  | error message =>
      rw [headerId] at created
      cases created
  | ok headerId' =>
      cases orderUpdateId : propertyText payload "orderUpdateId" with
      | error message =>
          rw [headerId, orderUpdateId] at created
          cases created
      | ok orderUpdateId' =>
          rw [headerId, orderUpdateId] at created
          obtain rfl := Except.ok.inj created
          cases headerId' <;> cases orderUpdateId' <;> cases payload.property? "orderId" <;>
            simp [isInstantActionsValidationError, orderError, textReference, withoutDetail,
              Topic.order, Topic.instantActions]

private theorem Event.Changes.not_validationError_of_add {c : Config} {event : Event}
    {error : Error}
    (changes : event.Changes c (.add error)) : isInstantActionsValidationError error = false := by
  cases changes with
  | failedAction failed =>
      unfold Config.actionError at failed
      split at failed
      · split at failed
        · cases failed
        · obtain rfl := Option.some.inj failed
          exact isInstantActionsValidationError_createActionError ..
      · cases failed
  | rejectedOrder decided =>
      obtain ⟨errorType, errorDescription, errorRefs, -, rfl⟩ := decideOrder_reject decided
      exact isInstantActionsValidationError_of_reference (.inl rfl)
        (by simp [createOrderError, orderError, textReference])
  | invalidOrder created => exact isInstantActionsValidationError_createInvalidOrderError created

private theorem Event.Changes.not_validationError_of_count {c : Config} {event : Event}
    {error : Error} (changes : event.Changes c (.count error))
    (valid : ∀ payload message, event ≠ .invalidInstantActions payload message) :
    isInstantActionsValidationError error = false := by
  cases changes with
  | rejectedAction notExecutable =>
      unfold Config.checkInstantActionExecutable at notExecutable
      simp only at notExecutable
      split at notExecutable
      · split at notExecutable
        · obtain rfl := Option.some.inj notExecutable
          exact isInstantActionsValidationError_createActionError ..
        · split at notExecutable
          · obtain rfl := Option.some.inj notExecutable
            exact isInstantActionsValidationError_createActionError ..
          · cases notExecutable
      · split at notExecutable
        · cases notExecutable
        · obtain rfl := Option.some.inj notExecutable
          exact isInstantActionsValidationError_createActionError ..
  | invalidInstantActions created => exact absurd rfl (valid _ _)

/-! ## Steps of the book -/

private theorem validationErrorCount_append (errors errors' : List StateError) :
    validationErrorCount (errors ++ errors') =
      validationErrorCount errors + validationErrorCount errors' :=
  List.countP_append

private theorem validationErrorCount_singleton {error : StateError}
    (other : isInstantActionsValidationError error.error = false) :
    validationErrorCount [error] = 0 := by
  simp [validationErrorCount, other]

private theorem validationErrorCount_eq_zero {errors : List StateError}
    (others : ∀ error ∈ errors, isInstantActionsValidationError error.error = false) :
    validationErrorCount errors = 0 :=
  List.countP_eq_zero.mpr fun error member => by simp [others error member]

/-- The number of errors depends on their contents only. -/
private theorem validationErrorCount_congr {errors errors' : List StateError}
    (same : errors.map (·.error) = errors'.map (·.error)) :
    validationErrorCount errors = validationErrorCount errors' := by
  have mapped : ∀ errors : List StateError, validationErrorCount errors =
      (errors.map (·.error)).countP isInstantActionsValidationError := fun errors => by
    rw [List.countP_map]
    rfl
  rw [mapped, mapped, same]

/-- A last number may fall. -/
private theorem isChain_concat_of_le {counts : List Nat} {last lower : Nat}
    (chain : (counts ++ [last]).IsChain (· ≥ ·)) (falls : lower ≤ last) :
    (counts ++ [lower]).IsChain (· ≥ ·) := by
  obtain ⟨before, -, joint⟩ := List.isChain_append.mp chain
  refine List.isChain_append.mpr ⟨before, .singleton _, fun count ends other first => ?_⟩
  obtain rfl := Option.some.inj first
  exact Nat.le_trans falls (joint count ends last rfl)

/-- The errors that a step may add are no validation errors, and those that it may supply
are no more than before. -/
structure AddsNoValidationError (allowed : ErrorChange → Prop) (c : Config)
    (supplied : Option (List StateError)) : Prop where
  add : ∀ error, allowed (.add error) → isInstantActionsValidationError error = false
  count : ∀ error, allowed (.count error) → isInstantActionsValidationError error = false
  supply : ∀ errors, allowed (.supply errors) →
    ∃ list, supplied = some list ∧ errors = list.map (·.error)
  bounded : ∀ list, supplied = some list → validationErrorCount list ≤ c.validationErrorCount
  drops : ∀ keeps, allowed (.accept keeps) ∨ allowed .complete → supplied = none

theorem AddsNoValidationError.none (c : Config) :
    AddsNoValidationError (fun _ => False) c none where
  add _ allowed := allowed.elim
  count _ allowed := allowed.elim
  supply _ allowed := allowed.elim
  bounded _ supplied := by cases supplied
  drops _ _ := rfl

/-- How far a step has come: the numbers of validation errors have fallen so far. -/
structure FallsTo (c : Config) (supplied : Option (List StateError)) (book : ErrorBook) :
    Prop where
  chain : ∃ states, book.published = c.published ++ states ∧
    ((c.validationErrorCount :: reportedCounts states) ++
      [validationErrorCount book.errors]).IsChain (· ≥ ·)
  bounded : ∀ list, supplied = some list →
    validationErrorCount list ≤ validationErrorCount book.errors

namespace FallsTo

variable {c : Config} {supplied : Option (List StateError)} {book after : ErrorBook}

/-- Validation errors are left or dropped. -/
theorem lower (falls : FallsTo c supplied book) (published : after.published = book.published)
    (fewer : validationErrorCount after.errors ≤ validationErrorCount book.errors)
    (bounded : ∀ list, supplied = some list →
      validationErrorCount list ≤ validationErrorCount after.errors) :
    FallsTo c supplied after where
  chain := by
    obtain ⟨states, earlier, chain⟩ := falls.chain
    exact ⟨states, published.trans earlier, isChain_concat_of_le chain fewer⟩
  bounded := bounded

/-- Other errors are added. -/
theorem add (falls : FallsTo c supplied book) {error : StateError}
    (other : isInstantActionsValidationError error.error = false)
    (published : after.published = book.published)
    (errors : after.errors = book.errors ++ [error]) :
    FallsTo c supplied after := by
  have same : validationErrorCount after.errors = validationErrorCount book.errors := by
    rw [errors, validationErrorCount_append, validationErrorCount_singleton other, Nat.add_zero]
  refine falls.lower published (Nat.le_of_eq same) fun list known => ?_
  rw [same]
  exact falls.bounded list known

/-- A State is published with the errors as they are. -/
theorem publish (falls : FallsTo c supplied book) {state : State}
    (same : state.errors = book.errors) :
    FallsTo c supplied { book with published := book.published ++ [state] } where
  chain := by
    obtain ⟨states, published, chain⟩ := falls.chain
    refine ⟨states ++ [state], by simp [published], ?_⟩
    have counts : reportedCounts (states ++ [state]) =
        reportedCounts states ++ [validationErrorCount book.errors] := by
      simp [reportedCounts, same]
    rw [counts, ← List.cons_append]
    refine List.isChain_append.mpr ⟨chain, .singleton _, fun count ends other first => ?_⟩
    simp only [List.getLast?_concat, Option.mem_some_iff] at ends
    simp only [List.head?_cons, Option.mem_some_iff] at first
    omega
  bounded := falls.bounded

theorem step {allowed : ErrorChange → Prop} (harmless : AddsNoValidationError allowed c supplied)
    (falls : FallsTo c supplied book) (step : ErrorBook.Step allowed book after) :
    FallsTo c supplied after := by
  cases step with
  | skip => exact ⟨falls.chain, falls.bounded⟩
  | publish same => exact falls.publish same
  | @change change allows =>
      cases change with
      | add error => exact falls.add (harmless.add _ allows) rfl rfl
      | count error => exact falls.add (harmless.count _ allows) rfl rfl
      | supply errors =>
          obtain ⟨list, known, rfl⟩ := harmless.supply _ allows
          have same : validationErrorCount (book.apply (.supply (list.map (·.error)))).errors =
              validationErrorCount list := by
            refine validationErrorCount_congr ?_
            simp [ErrorBook.apply, List.map_map, Function.comp_def]
          refine falls.lower rfl (same.trans_le (falls.bounded list known)) fun other known' => ?_
          obtain rfl := Option.some.inj (known.symm.trans known')
          exact Nat.le_of_eq same.symm
      | accept keeps =>
          refine falls.lower rfl List.filter_sublist.countP_le fun list known => ?_
          cases (harmless.drops keeps (.inl allows)).symm.trans known
      | complete =>
          refine falls.lower rfl List.filter_sublist.countP_le fun list known => ?_
          cases (harmless.drops false (.inr allows)).symm.trans known

end FallsTo

theorem ErrorSteps.falls {allowed : ErrorChange → Prop} {c next : Config}
    {supplied : Option (List StateError)} (steps : ErrorSteps allowed c next)
    (harmless : AddsNoValidationError allowed c supplied) : c.Falls next := by
  have initial : FallsTo c supplied c.errorBook :=
    ⟨⟨[], (List.append_nil _).symm, by
      simp [reportedCounts, Config.validationErrorCount, Config.errorBook]⟩, harmless.bounded⟩
  have falls := steps.invariant (FallsTo c supplied) initial fun falls step =>
    falls.step harmless step
  exact falls.chain

/-! ## Steps of the controller -/

/-- What the adapter supplies as errors has no more validation errors than before. -/
private theorem Event.suppliedErrorList_count {c : Config} {event : Event} {list : List StateError}
    (supplied : event.suppliedErrorList c = some list)
    (others : ∀ error ∈ event.suppliedErrors c, isInstantActionsValidationError error = false) :
    validationErrorCount list ≤ c.validationErrorCount := by
  cases event with
  | updateActionStatus context change =>
      have supplied : change.linkedState.errors = some list := supplied
      refine (validationErrorCount_eq_zero fun error member => ?_).trans_le (Nat.zero_le _)
      refine others error.error ?_
      simp only [Event.suppliedErrors, supplied, Option.getD_some]
      exact List.mem_map_of_mem member
  | updatePartialState newState reportImmediately =>
      have supplied : newState.errors = some list := supplied
      refine (validationErrorCount_eq_zero fun error member => ?_).trans_le (Nat.zero_le _)
      refine others error.error ?_
      simp only [Event.suppliedErrors, supplied, Option.getD_some]
      exact List.mem_map_of_mem member
  | updateErrors error mode reportImmediately =>
      have other := others error (List.mem_singleton.mpr rfl)
      cases changed : newErrors c.agv.currentState.errors error mode with
      | error => simp [Event.suppliedErrorList, changed] at supplied
      | ok result =>
          have changed : newErrors c.agv.currentState.errors error mode = .ok (some list) := by
            simpa [Event.suppliedErrorList, changed] using supplied
          unfold newErrors at changed
          generalize findErrorIndex error c.agv.currentState.errors 0 = found at changed
          cases found with
          | error message => cases changed
          | ok found =>
              cases found with
              | none =>
                  cases mode with
                  | add =>
                      cases changed
                      rw [validationErrorCount_append, validationErrorCount_singleton other]
                      exact Nat.le_refl _
                  | remove => cases changed
              | some index =>
                  cases mode with
                  | add => cases changed
                  | remove =>
                      cases changed
                      exact (List.eraseIdx_sublist _ _).countP_le
  | _ => cases supplied

/-- As long as no message is rejected as invalid, and the adapter supplies no validation
errors, there are fewer and fewer of them. -/
theorem Config.perform_falls (c : Config) {event : Event}
    (valid : ∀ payload message, event ≠ .invalidInstantActions payload message)
    (others : (event.suppliedErrorList c).isSome = true →
      ∀ error ∈ event.suppliedErrors c, isInstantActionsValidationError error = false) :
    c.Falls (c.perform event) := by
  have harmless : AddsNoValidationError (event.Changes c) c (event.suppliedErrorList c) := {
    add := fun _ changes => changes.not_validationError_of_add
    count := fun _ changes => changes.not_validationError_of_count valid
    supply := fun errors changes => by
      cases changes with
      | supplied supplied => exact ⟨_, supplied, rfl⟩
    bounded := fun list supplied =>
      Event.suppliedErrorList_count supplied (others (by simp [supplied]))
    drops := fun keeps changes => by
      rcases changes with accepted | completed
      · cases accepted with
        | acceptedOrder => rfl
      · cases completed with
        | published => rfl }
  exact (c.perform_errorSteps event).falls harmless

/-- The rejection of an invalid message adds one validation error, which is reported. -/
theorem Config.processInvalidInstantActions_falls (c : Config) (payload : Json)
    (message : String) :
    ∃ middle : Config, middle.published = c.published ∧
      middle.validationErrorCount ≤ c.validationErrorCount + 1 ∧
      middle.Falls (c.processInvalidInstantActions payload message) := by
  unfold processInvalidInstantActions
  split
  · exact ⟨c, rfl, Nat.le_succ _, ErrorSteps.falls (.of_same rfl) (.none c)⟩
  · next error _ =>
    let counts := setEntry c.agv.nextErrorRef 0 c.agv.instantActionsErroredPublishCount
    let stateError : StateError := { ref := c.agv.nextErrorRef, error := error }
    let middle : Config :=
      { c with
        agv := { c.agv with
          instantActionsErroredPublishCount := counts
          nextErrorRef := c.agv.nextErrorRef + 1
          currentState := c.agv.currentState.merge
            { errors := some (c.agv.currentState.errors ++ [stateError]) } } }
    have added : middle.validationErrorCount ≤ c.validationErrorCount + 1 := by
      have errors : middle.agv.currentState.errors = c.agv.currentState.errors ++ [stateError] :=
        rfl
      unfold validationErrorCount
      rw [errors, validationErrorCount_append]
      exact Nat.add_le_add_left List.countP_le_length _
    exact ⟨middle, rfl, added, (publishCurrentState_errorSteps middle).falls (.none middle)⟩

end Vda5050
