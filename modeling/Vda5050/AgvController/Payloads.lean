import Mathlib.Data.Option.Basic
import Vda5050.AgvController.Orders

/-!
# Errors on arbitrary payloads

The AGV controller answers payloads that do not conform to their schema with
an error it builds from the payload. Whether the error can be built, and then
published, depends on the properties the payload happens to have.
-/

set_option autoImplicit false

namespace Vda5050

/-! ## Texts of JSON values -/

namespace Json

mutual

/-- Neither `null` nor an object with an own property `toString` is converted. -/
def hasText : Json → Bool
  | .null => false
  | .bool _ | .num _ _ | .str _ => true
  | .arr items => haveTexts items
  | .obj fields => (fields.lookup "toString").isNone

/-- Elements of an array that are `null` are not converted. -/
def haveTexts : List Json → Bool
  | [] => true
  | .null :: items => haveTexts items
  | item :: items => item.hasText && haveTexts items

end

private theorem isOk_both {First Second Result : Type} (first : Except TypeError First)
    (second : Except TypeError Second) (combine : First → Second → Result) :
    (do
      let left ← first
      let right ← second
      return combine left right : Except TypeError Result).isOk = (first.isOk && second.isOk) := by
  cases first with
  | error => rfl
  | ok => cases second <;> rfl

mutual

private theorem isOk_toStringMethod : (value : Json) → value.toStringMethod.isOk = value.hasText
  | .null => rfl
  | .bool _ => rfl
  | .num _ _ => rfl
  | .str _ => rfl
  | .arr items => by
      have texts := isOk_joinedTexts items
      simp only [toStringMethod, hasText]
      rw [← texts]
      cases joinedTexts items <;> rfl
  | .obj fields => by
      simp only [toStringMethod, hasText]
      cases fields.lookup "toString" <;> rfl

private theorem isOk_joinedTexts : (items : List Json) → (joinedTexts items).isOk = haveTexts items
  | [] => rfl
  | .null :: items => by
      have texts := isOk_joinedTexts items
      simp only [joinedTexts, haveTexts]
      rw [← texts]
      cases joinedTexts items <;> rfl
  | .bool value :: items => by
      simp only [joinedTexts, haveTexts, isOk_both, isOk_toStringMethod (.bool value),
        isOk_joinedTexts items]
  | .num value text :: items => by
      simp only [joinedTexts, haveTexts, isOk_both, isOk_toStringMethod (.num value text),
        isOk_joinedTexts items]
  | .str value :: items => by
      simp only [joinedTexts, haveTexts, isOk_both, isOk_toStringMethod (.str value),
        isOk_joinedTexts items]
  | .arr values :: items => by
      simp only [joinedTexts, haveTexts, isOk_both, isOk_toStringMethod (.arr values),
        isOk_joinedTexts items]
  | .obj fields :: items => by
      simp only [joinedTexts, haveTexts, isOk_both, isOk_toStringMethod (.obj fields),
        isOk_joinedTexts items]

end

/-- The value is a string. -/
def isText : Json → Bool
  | .str _ => true
  | _ => false

end Json

namespace AgvController

/-- The properties of a payload on topic order that an error refers to have
texts, and `orderId` is one itself. -/
def isReportableOrder (payload : Json) : Bool :=
  (payload.property? "headerId").all (·.hasText) &&
    (payload.property? "orderUpdateId").all (·.hasText) &&
    (payload.property? "orderId").all (·.isText)

/-- The one property of a payload on topic instantActions that an error refers to. -/
def areReportableInstantActions (payload : Json) : Bool :=
  (payload.property? "headerId").all (·.hasText)

/-! ## References -/

@[simp] theorem textReference_conforms (key value : String) :
    (textReference key value).conforms := rfl

private theorem withoutDetail_conforms {errorRefs : List ErrorReference}
    (conform : ∀ reference ∈ errorRefs, reference.conforms) :
    ∀ reference ∈ withoutDetail errorRefs, reference.conforms :=
  fun reference member => conform reference (List.mem_filter.mp member).1

private theorem orderError_conforms_iff {headerId orderUpdateId : Option String}
    {orderId : Option Json} {errorType errorDescription : String} {errorRefs : List ErrorReference}
    (conform : ∀ reference ∈ errorRefs, reference.conforms) :
    (orderError headerId orderId orderUpdateId errorType errorDescription errorRefs).conforms ↔
      orderId.all (·.isText) := by
  have others := List.all_eq_true.mpr (withoutDetail_conforms conform)
  have text : ∀ value : Json, (ErrorReference.mk "orderId" value).conforms = value.isText := by
    intro value
    cases value <;> rfl
  cases headerId <;> cases orderUpdateId <;> cases orderId <;>
    simp [orderError, Error.conforms, others, text]

private theorem createOrderError_conforms (order : Order) (errorType errorDescription : String)
    {errorRefs : List ErrorReference} (conform : ∀ reference ∈ errorRefs, reference.conforms) :
    (createOrderError order errorType errorDescription errorRefs).conforms :=
  (orderError_conforms_iff conform).mpr rfl

theorem createActionError_conforms (context : ActionContext) (errorType errorDescription : String)
    {errorRefs : List ErrorReference} (conform : ∀ reference ∈ errorRefs, reference.conforms) :
    (createActionError context errorType errorDescription errorRefs).conforms := by
  have others := List.all_eq_true.mpr (withoutDetail_conforms conform)
  simp [createActionError, Error.conforms, others]

/-! ## Payloads -/

private theorem isOk_propertyText (payload : Json) (key : String) :
    (propertyText payload key).isOk = (payload.property? key).all (·.hasText) := by
  unfold propertyText
  cases payload.property? key with
  | none => rfl
  | some value =>
      rw [Option.all_some, ← Json.isOk_toStringMethod]
      cases text : value.toStringMethod <;> simp only [text] <;> rfl

/-- The error on an invalid order is built from the texts of two properties. -/
private theorem createInvalidOrderError_eq_ok {payload : Json} {errorDescription : String}
    {error : Error} :
    createInvalidOrderError payload errorDescription = .ok error ↔
      ∃ headerId orderUpdateId, propertyText payload "headerId" = .ok headerId ∧
        propertyText payload "orderUpdateId" = .ok orderUpdateId ∧
        orderError headerId (payload.property? "orderId") orderUpdateId ErrorType.orderValidation
          errorDescription [] = error := by
  unfold createInvalidOrderError
  cases propertyText payload "headerId" with
  | error => simp [bind, Except.bind]
  | ok headerId =>
      cases propertyText payload "orderUpdateId" with
      | error => simp [bind, Except.bind]
      | ok orderUpdateId => simp [bind, Except.bind, pure, Except.pure]

theorem isOk_iff {Failure Value : Type} {result : Except Failure Value} :
    result.isOk ↔ ∃ value, result = .ok value := by
  cases result <;> simp [Except.isOk, Except.toBool]

/-- An error can be built and conforms to the State schema if and only if the
payload is a reportable order. -/
theorem createInvalidOrderError_iff (payload : Json) (errorDescription : String) :
    (∃ error, createInvalidOrderError payload errorDescription = .ok error ∧ error.conforms) ↔
      isReportableOrder payload := by
  unfold isReportableOrder
  rw [← isOk_propertyText, ← isOk_propertyText, Bool.and_eq_true, Bool.and_eq_true, isOk_iff,
    isOk_iff]
  constructor
  · rintro ⟨error, created, conforms⟩
    obtain ⟨headerId, orderUpdateId, header, update, rfl⟩ :=
      createInvalidOrderError_eq_ok.mp created
    exact ⟨⟨⟨_, header⟩, ⟨_, update⟩⟩, (orderError_conforms_iff (by simp)).mp conforms⟩
  · rintro ⟨⟨⟨headerId, header⟩, ⟨orderUpdateId, update⟩⟩, text⟩
    exact ⟨_, createInvalidOrderError_eq_ok.mpr ⟨headerId, orderUpdateId, header, update, rfl⟩,
      (orderError_conforms_iff (by simp)).mpr text⟩

/-- The error on invalid instant actions is built from the text of one property. -/
theorem createInstantActionsValidationError_iff (payload : Json) (errorDescription : String) :
    (∃ error, createInstantActionsValidationError payload errorDescription = .ok error) ↔
      areReportableInstantActions payload := by
  unfold areReportableInstantActions createInstantActionsValidationError
  rw [← isOk_propertyText]
  cases propertyText payload "headerId" with
  | error => simp [Except.isOk, Except.toBool, bind, Except.bind]
  | ok headerId => simp [Except.isOk, Except.toBool, bind, Except.bind, pure, Except.pure]

theorem createInstantActionsValidationError_conforms {payload : Json} {errorDescription : String}
    {error : Error}
    (created : createInstantActionsValidationError payload errorDescription = .ok error) :
    error.conforms := by
  unfold createInstantActionsValidationError at created
  cases header : propertyText payload "headerId" with
  | error => simp [header, bind, Except.bind] at created
  | ok headerId =>
      simp only [header, bind, Except.bind, pure, Except.pure, Except.ok.injEq] at created
      subst created
      cases headerId <;> simp [Error.conforms]

/-! ## The adapter -/

/-- The references the adapter answers with are pairs of strings. -/
structure AdapterAnswers.Conforms (adapter : AdapterAnswers) : Prop where
  isActionExecutable : ∀ context, ∀ reference ∈ adapter.isActionExecutable context,
    reference.conforms
  isNodeWithinDeviationRange : ∀ node, ∀ reference ∈ adapter.isNodeWithinDeviationRange node,
    reference.conforms
  isRouteTraversable : ∀ nodes edges, ∀ reference ∈ adapter.isRouteTraversable nodes edges,
    reference.conforms

variable {adapter : AdapterAnswers} {order : Order} {error : Error}

theorem AdapterAnswers.conforms_empty : ({} : AdapterAnswers).Conforms where
  isActionExecutable := by simp
  isNodeWithinDeviationRange := by simp
  isRouteTraversable := by simp

theorem AdapterAnswers.Conforms.checkRouteTraversable (conforms : adapter.Conforms)
    (rejected : AgvController.checkRouteTraversable adapter order = some error) :
    error.conforms := by
  unfold AgvController.checkRouteTraversable at rejected
  dsimp only at rejected
  split at rejected
  · cases rejected
  · rw [← Option.some.inj rejected]
    exact createOrderError_conforms order _ _ (conforms.isRouteTraversable _ _)

theorem AdapterAnswers.Conforms.checkOrderActionsExecutable (conforms : adapter.Conforms)
    (rejected : AgvController.checkOrderActionsExecutable adapter order = some error) :
    error.conforms := by
  obtain ⟨context, -, rejected⟩ := List.exists_of_findSome?_eq_some rejected
  dsimp only at rejected
  split at rejected
  · cases rejected
  · rw [← Option.some.inj rejected]
    apply createOrderError_conforms
    simpa using conforms.isActionExecutable context

theorem AdapterAnswers.Conforms.checkNodeWithinDeviationRange (conforms : adapter.Conforms)
    (rejected : AgvController.checkNodeWithinDeviationRange adapter order = some error) :
    error.conforms := by
  obtain ⟨firstNode, -, rejected⟩ := Option.bind_eq_some_iff.mp rejected
  dsimp only at rejected
  split at rejected
  · cases rejected
  · rw [← Option.some.inj rejected]
    apply createOrderError_conforms
    simpa using conforms.isNodeWithinDeviationRange firstNode

private theorem checkVehicleState_conforms {state : State}
    (rejected : checkVehicleState state order = some error) : error.conforms := by
  unfold checkVehicleState at rejected
  have texts : ∀ (errorDescription key value : String),
      (createOrderError order ErrorType.order errorDescription
        [textReference key value]).conforms :=
    fun _ key value => createOrderError_conforms order _ _ (by simp)
  split at rejected
  · rw [← Option.some.inj rejected]
    exact texts _ _ _
  · split at rejected
    · rw [← Option.some.inj rejected]
      exact texts _ _ _
    · split at rejected
      · rw [← Option.some.inj rejected]
        exact texts _ _ _
      · split at rejected
        · rw [← Option.some.inj rejected]
          exact texts _ _ _
        · cases rejected

/-- Every error by which an order is rejected conforms to the State schema. -/
theorem AdapterAnswers.Conforms.decideOrder (conforms : adapter.Conforms) {agv : AgvController}
    (rejected : agv.decideOrder adapter order = .reject error) : error.conforms := by
  have plain : ∀ errorType errorDescription : String,
      (createOrderError order errorType errorDescription []).conforms :=
    fun _ _ => createOrderError_conforms order _ _ (by simp)
  have stitching : agv.decideStitching order = .reject error → error.conforms := by
    intro rejected
    unfold decideStitching at rejected
    split at rejected
    · cases rejected
    · rw [← OrderDecision.reject.inj rejected]
      exact plain _ _
  unfold AgvController.decideOrder at rejected
  split at rejected
  · rw [← OrderDecision.reject.inj rejected]
    exact plain _ _
  · split at rejected
    · rw [← OrderDecision.reject.inj rejected]
      exact plain _ _
    · split at rejected
      · next prohibited =>
        rw [← OrderDecision.reject.inj rejected]
        rcases (Option.orElse_eq_some _ _ _).mp prohibited with route | ⟨-, later⟩
        · exact conforms.checkRouteTraversable route
        · rcases (Option.orElse_eq_some _ _ _).mp later with actions | ⟨-, vehicle⟩
          · exact conforms.checkOrderActionsExecutable actions
          · exact checkVehicleState_conforms vehicle
      · unfold decideMode at rejected
        split at rejected
        · split at rejected
          · rw [← OrderDecision.reject.inj rejected]
            exact plain _ _
          · split at rejected
            · cases rejected
            · split at rejected
              · exact stitching rejected
              · split at rejected
                · cases rejected
                · rw [← OrderDecision.reject.inj rejected]
                  exact plain _ _
        · split at rejected
          · exact stitching rejected
          · split at rejected
            · next deviating =>
              rw [← OrderDecision.reject.inj rejected]
              exact conforms.checkNodeWithinDeviationRange deviating
            · cases rejected

end AgvController

end Vda5050
