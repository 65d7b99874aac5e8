import Vda5050.AgvController.Errors

/-!
# Rejected orders as seen by the master controller

The master controller learns from the errors of a State that an order it has
assigned has been rejected. What it takes from the references of an error
decides which order this is.
-/

set_option autoImplicit false

namespace Vda5050

namespace MasterController

/-- What `_dispatchState` reads from the references of an error. The parsed
`orderUpdateId` is itself `none` if it is not a number. -/
structure ErrorOrigin where
  topic : Option Json := none
  orderId : Option Json := none
  orderUpdateId : Option (Option Int) := none
  hasActionIdRef : Bool := false
  deriving DecidableEq, Repr

/-- Of several references with the same key the last one counts. -/
def ErrorOrigin.read (origin : ErrorOrigin) (reference : ErrorReference) : ErrorOrigin :=
  if reference.referenceKey = "actionId" then { origin with hasActionIdRef := true }
  else if reference.referenceKey = "topic" then
    { origin with topic := some reference.referenceValue }
  else if reference.referenceKey = "orderId" then
    { origin with orderId := some reference.referenceValue }
  else if reference.referenceKey = "orderUpdateId" then
    { origin with
      orderUpdateId := some (reference.referenceValue.toStringMethod.toOption.bind parseInt) }
  else origin

def errorOrigin (error : Error) : ErrorOrigin :=
  (error.errorReferences.getD []).foldl .read {}

/-- The `orderId` and `orderUpdateId` under which `_dispatchState` looks for the
order that an error rejects, `none` if the error is not taken for a rejection
or refers to no order. -/
def rejectedOrder (error : Error) : Option (String × Int) :=
  let origin := errorOrigin error
  if origin.topic.any (· ≠ .str Topic.order) then none
  else if origin.hasActionIdRef && error.errorType ≠ ErrorType.order then none
  else
    match origin.orderId, origin.orderUpdateId with
    | some (.str orderId), some (some orderUpdateId) => some (orderId, orderUpdateId)
    | _, _ => none

/-- Whether the master controller takes an error for the rejection of an order. -/
def isRejectionOf (order : Order) (error : Error) : Bool :=
  rejectedOrder error = some (order.orderId, (order.orderUpdateId : Int))

/-! ## The errors created by the AGV controller -/

private theorem foldl_read_hasActionIdRef (references : List ErrorReference)
    (origin : ErrorOrigin) :
    (references.foldl .read origin).hasActionIdRef =
      (origin.hasActionIdRef || references.any (·.referenceKey = "actionId")) := by
  induction references generalizing origin with
  | nil => simp
  | cons reference references ih =>
      rw [List.foldl_cons, ih, List.any_cons]
      unfold ErrorOrigin.read
      by_cases action : reference.referenceKey = "actionId"
      · simp [action]
      · simp only [action, decide_false, Bool.false_or, if_false]
        split
        · rfl
        · split
          · rfl
          · split <;> rfl

/-- Errors that refer to an action reject an order only with the generic type
of order errors. -/
private theorem rejectedOrder_of_actionId {error : Error}
    (refers : (error.errorReferences.getD []).any (·.referenceKey = "actionId"))
    (other : error.errorType ≠ ErrorType.order) : rejectedOrder error = none := by
  have action : (errorOrigin error).hasActionIdRef = true := by
    unfold errorOrigin
    rw [foldl_read_hasActionIdRef, refers, Bool.or_true]
  unfold rejectedOrder
  simp only [action, other, ne_eq, not_false_eq_true, decide_true, Bool.and_self, if_true]
  split <;> rfl

theorem rejectedOrder_createActionError {context : ActionContext} {errorType : String}
    (other : errorType ≠ ErrorType.order) (errorDescription : String)
    (errorRefs : List ErrorReference) :
    rejectedOrder (AgvController.createActionError context errorType errorDescription errorRefs) =
      none :=
  rejectedOrder_of_actionId (by simp [AgvController.createActionError, AgvController.textReference])
    other

theorem rejectedOrder_createInstantActionsValidationError {payload : Json}
    {errorDescription : String} {error : Error}
    (created : AgvController.createInstantActionsValidationError payload errorDescription =
      .ok error) : rejectedOrder error = none := by
  unfold AgvController.createInstantActionsValidationError at created
  cases headerId : AgvController.propertyText payload "headerId" with
  | error message =>
      rw [headerId] at created
      cases created
  | ok headerId' =>
      rw [headerId] at created
      obtain rfl := Except.ok.inj created
      cases headerId' <;>
        simp [rejectedOrder, errorOrigin, ErrorOrigin.read, AgvController.textReference,
          Topic.instantActions, Topic.order]

end MasterController

end Vda5050
