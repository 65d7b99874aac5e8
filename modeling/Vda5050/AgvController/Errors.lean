import Vda5050.AgvController.Basic

/-!
# Errors reported by the AGV controller
-/

set_option autoImplicit false

namespace Vda5050

namespace AgvController

def refKeyErrorDescriptionDetail : String := "errorDescriptionDetail"

/-- The description extended by a detail supplied as an error reference. -/
def describe (errorDescription : String) (errorRefs : List ErrorReference) : String :=
  match errorRefs.find? (·.referenceKey = refKeyErrorDescriptionDetail) with
  | some { referenceValue := .str detail, .. } =>
      if detail = "" then errorDescription else errorDescription ++ ": " ++ detail
  | _ => errorDescription

def withoutDetail (errorRefs : List ErrorReference) : List ErrorReference :=
  errorRefs.filter (·.referenceKey ≠ refKeyErrorDescriptionDetail)

def textReference (key value : String) : ErrorReference := ⟨key, .str value⟩

/-- An order error over the references that could be taken from the order. -/
def orderError (headerId : Option String) (orderId : Option Json) (orderUpdateId : Option String)
    (errorType errorDescription : String) (errorRefs : List ErrorReference) : Error where
  errorType := errorType
  errorLevel := .warning
  errorDescription := some (describe errorDescription errorRefs)
  errorReferences := some <|
    textReference "topic" Topic.order ::
      ((headerId.map (textReference "headerId")).toList ++
        (orderId.map (ErrorReference.mk "orderId")).toList ++
        (orderUpdateId.map (textReference "orderUpdateId")).toList ++
        withoutDetail errorRefs)

/-- `_createOrderError` for an order that conforms to its schema. -/
def createOrderError (order : Order) (errorType errorDescription : String)
    (errorRefs : List ErrorReference) : Error :=
  orderError (some (toString order.headerId)) (some (.str order.orderId))
    (some (toString order.orderUpdateId)) errorType errorDescription errorRefs

/-- The text of a property used as error reference: absent if the property
is, and failing as the conversion of its value does. -/
def propertyText (payload : Json) (key : String) : Except Json.TypeError (Option String) :=
  match payload.property? key with
  | none => .ok none
  | some value => value.toStringMethod.map some

/-- `_createOrderError` with `ErrorType.OrderValidation` for a payload that
is not a valid order. No property is read from values other than objects. -/
def createInvalidOrderError (payload : Json) (errorDescription : String) :
    Except Json.TypeError Error := do
  let headerId ← propertyText payload "headerId"
  let orderUpdateId ← propertyText payload "orderUpdateId"
  return orderError headerId (payload.property? "orderId") orderUpdateId
    ErrorType.orderValidation errorDescription []

/-- `_createActionError` -/
def createActionError (context : ActionContext) (errorType errorDescription : String)
    (errorRefs : List ErrorReference) : Error where
  errorType := errorType
  errorLevel := .warning
  errorDescription := some (describe errorDescription errorRefs)
  errorReferences := some <|
    textReference "topic"
        (match context.scope with
          | .instant => Topic.instantActions
          | .node _ | .edge _ => Topic.order) ::
      textReference "actionId" context.action.actionId ::
      textReference "actionType" context.action.actionType ::
      withoutDetail errorRefs

/-- `_createInstantActionsValidationError` -/
def createInstantActionsValidationError (payload : Json) (errorDescription : String) :
    Except Json.TypeError Error := do
  let headerId ← propertyText payload "headerId"
  return {
    errorType := ErrorType.instantActionValidation
    errorLevel := .warning
    errorDescription := some errorDescription
    errorReferences := some <|
      textReference "topic" Topic.instantActions ::
        (headerId.map (textReference "headerId")).toList }

/-! ## Adding and removing errors by the adapter -/

/-- `_areErrorReferencesEqual`, which fails on absent references. -/
def areErrorReferencesEqual (refs1 refs2 : Option (List ErrorReference)) :
    Except Json.TypeError Bool :=
  match refs1, refs2 with
  | some refs1, some refs2 =>
      .ok (refs1.length = refs2.length && refs1.all fun reference => refs2.contains reference)
  | _, _ => .error ⟨"Cannot read property 'length' of undefined"⟩

/-- `_findErrorIndex`. References are compared only where all else agrees. -/
def findErrorIndex (error : Error) : List StateError → Nat → Except Json.TypeError (Option Nat)
  | [], _ => .ok none
  | candidate :: candidates, index =>
      if candidate.error.errorDescription = error.errorDescription &&
          candidate.error.errorLevel = error.errorLevel &&
          candidate.error.errorType = error.errorType then do
        if ← areErrorReferencesEqual candidate.error.errorReferences error.errorReferences then
          return some index
        else findErrorIndex error candidates (index + 1)
      else findErrorIndex error candidates (index + 1)

inductive UpdateMode where
  | add
  | remove
  deriving DecidableEq, Repr

/-- The errors passed on by `updateErrors`, `none` if the state is left alone. -/
def newErrors (errors : List StateError) (error : Error) (mode : UpdateMode) :
    Except Json.TypeError (Option (List StateError)) := do
  match ← findErrorIndex error errors 0, mode with
  | some _, .add | none, .remove => return none
  | some index, .remove => return some (errors.eraseIdx index)
  | none, .add => return some (errors ++ [{ ref := 0, error := error }])

end AgvController

end Vda5050
