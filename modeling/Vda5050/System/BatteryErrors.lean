import Vda5050.AgvController.ErrorObjects
import Vda5050.AgvController.ErrorUpdates
import Vda5050.AgvController.OrderUpdates
import Vda5050.System.VirtualAgv
import Vda5050.VirtualAgvAdapter.ErrorReports

/-!
# The low battery error of a virtual vehicle

The controller creates no low battery errors on its own, so that the one in its state,
if any, is the one the adapter has reported and still remembers, as long as the adapter
forgets it on ticks that report the charge only, and reports no second one before.
-/

set_option autoImplicit false

namespace Vda5050

open AgvController VirtualAgvAdapter

/-! ## Errors created by the controller -/

/-- The types of the errors that the controller creates itself. -/
def controllerErrorTypes : List String :=
  orderErrorTypes ++ [ErrorType.orderAction, ErrorType.instantAction,
    ErrorType.instantActionNoOrderToCancel, ErrorType.instantActionValidation]

private theorem actionError_errorType {context : ActionContext} {change : ActionStatusChangeInfo}
    {error : Error} (failed : Config.actionError context change = some error) :
    error.errorType ∈ controllerErrorTypes := by
  unfold Config.actionError at failed
  split at failed
  · split at failed
    · cases failed
    · obtain rfl := Option.some.inj failed
      cases context.scope
      · exact (by decide : ErrorType.instantAction ∈ controllerErrorTypes)
      · exact (by decide : ErrorType.orderAction ∈ controllerErrorTypes)
      · exact (by decide : ErrorType.orderAction ∈ controllerErrorTypes)
  · cases failed

private theorem checkInstantActionExecutable_errorType {agv : AgvController}
    {adapter : AdapterAnswers} {action : Action} {error : Error}
    (notExecutable : Config.checkInstantActionExecutable agv adapter action = some error) :
    error.errorType ∈ controllerErrorTypes := by
  unfold Config.checkInstantActionExecutable at notExecutable
  simp only at notExecutable
  split at notExecutable
  · split at notExecutable
    · cases notExecutable
      exact (by decide : ErrorType.instantActionNoOrderToCancel ∈ controllerErrorTypes)
    · split at notExecutable
      · cases notExecutable
        exact (by decide : ErrorType.instantActionNoOrderToCancel ∈ controllerErrorTypes)
      · cases notExecutable
  · split at notExecutable
    · cases notExecutable
    · cases notExecutable
      exact (by decide : ErrorType.instantAction ∈ controllerErrorTypes)

private theorem createInvalidOrderError_errorType {payload : Json} {errorDescription : String}
    {error : Error} (created : createInvalidOrderError payload errorDescription = .ok error) :
    error.errorType ∈ controllerErrorTypes := by
  unfold createInvalidOrderError at created
  cases headerId : propertyText payload "headerId" with
  | error message =>
      rw [headerId] at created
      cases created
  | ok headerId =>
      cases orderUpdateId : propertyText payload "orderUpdateId" with
      | error message =>
          rw [headerId, orderUpdateId] at created
          cases created
      | ok orderUpdateId =>
          rw [headerId, orderUpdateId] at created
          cases created
          exact (by decide : ErrorType.orderValidation ∈ controllerErrorTypes)

private theorem createInstantActionsValidationError_errorType {payload : Json}
    {errorDescription : String} {error : Error}
    (created : createInstantActionsValidationError payload errorDescription = .ok error) :
    error.errorType ∈ controllerErrorTypes := by
  unfold createInstantActionsValidationError at created
  cases headerId : propertyText payload "headerId" with
  | error message =>
      rw [headerId] at created
      cases created
  | ok headerId =>
      rw [headerId] at created
      cases created
      exact (by decide : ErrorType.instantActionValidation ∈ controllerErrorTypes)

private theorem Event.Changes.errorType_of_add {c : Config} {event : Event} {error : Error}
    (changes : event.Changes c (.add error)) : error.errorType ∈ controllerErrorTypes := by
  cases changes with
  | failedAction failed => exact actionError_errorType failed
  | rejectedOrder decided =>
      obtain ⟨errorType, errorDescription, errorRefs, member, rfl⟩ := decideOrder_reject decided
      exact List.mem_append_left _ member
  | invalidOrder created => exact createInvalidOrderError_errorType created

private theorem Event.Changes.errorType_of_count {c : Config} {event : Event} {error : Error}
    (changes : event.Changes c (.count error)) : error.errorType ∈ controllerErrorTypes := by
  cases changes with
  | rejectedAction notExecutable => exact checkInstantActionExecutable_errorType notExecutable
  | invalidInstantActions created =>
      exact createInstantActionsValidationError_errorType created

/-! ## Low battery errors -/

def batteryLowErrorType : String := "batteryLowError"

def batteryLowErrors (errors : List Error) : List Error :=
  errors.filter (·.errorType = batteryLowErrorType)

private theorem batteryLowErrors_append (errors errors' : List Error) :
    batteryLowErrors (errors ++ errors') = batteryLowErrors errors ++ batteryLowErrors errors' :=
  List.filter_append ..

private theorem batteryLowErrors_eq_nil {errors : List Error} :
    batteryLowErrors errors = [] ↔ ∀ error ∈ errors, error.errorType ≠ batteryLowErrorType := by
  simp [batteryLowErrors]

private theorem batteryLowErrors_controller {error : Error}
    (created : error.errorType ∈ controllerErrorTypes) : batteryLowErrors [error] = [] := by
  have other : error.errorType ≠ batteryLowErrorType := by
    intro same
    rw [same] at created
    revert created
    decide
  simp [batteryLowErrors, other]

private theorem batteryLowErrors_lowBatteryError (math : MathLibrary) (charge : Rat) :
    batteryLowErrors [lowBatteryError math charge] = [lowBatteryError math charge] := by
  simp [batteryLowErrors, lowBatteryError, batteryLowErrorType]

/-- The low battery errors in the current state. -/
def Config.batteryLowErrors (c : Config) : List Error := Vda5050.batteryLowErrors c.errors

/-- The controller leaves low battery errors alone or drops them. -/
private theorem Config.perform_batteryLowErrors (c : Config) {event : Event}
    (none : event.suppliedErrorList c = none) :
    (c.perform event).batteryLowErrors.Sublist c.batteryLowErrors := by
  refine ErrorSteps.invariant (fun book =>
    (Vda5050.batteryLowErrors (book.errors.map (·.error))).Sublist c.batteryLowErrors)
    (c.perform_errorSteps event) (List.Sublist.refl _) ?_
  intro book after kept step
  have dropped : ∀ errors : List StateError, errors.Sublist book.errors →
      (Vda5050.batteryLowErrors (errors.map (·.error))).Sublist c.batteryLowErrors :=
    fun errors sub => ((sub.map _).filter _).trans kept
  cases step with
  | skip | publish => exact kept
  | @change change changes =>
      cases change with
      | add error =>
          simp only [ErrorBook.apply, ErrorBook.add, List.map_append, List.map_cons, List.map_nil,
            batteryLowErrors_append, batteryLowErrors_controller changes.errorType_of_add,
            List.append_nil]
          exact kept
      | count error =>
          simp only [ErrorBook.apply, ErrorBook.add, List.map_append, List.map_cons, List.map_nil,
            batteryLowErrors_append, batteryLowErrors_controller changes.errorType_of_count,
            List.append_nil]
          exact kept
      | supply errors =>
          cases changes with
          | supplied supplied => simp [none] at supplied
      | accept keepsActionErrors => exact dropped _ List.filter_sublist
      | complete => exact dropped _ List.filter_sublist

/-! ## Updates of the low battery error -/

private theorem compareErrors_of_errorType {first second : Error}
    (other : first.errorType ≠ second.errorType) : compareErrors first second = .ok false := by
  simp [compareErrors, Error.agrees, other]

/-- The search passes errors of other types. -/
private theorem findErrorIndex_of_errorType {error : Error} {front rest : List StateError}
    (others : ∀ candidate ∈ front, candidate.error.errorType ≠ error.errorType) (index : Nat) :
    findErrorIndex error (front ++ rest) index =
      findErrorIndex error rest (index + front.length) := by
  induction front generalizing index with
  | nil => rfl
  | cons candidate front ih =>
      rw [List.cons_append, findErrorIndex_cons,
        compareErrors_of_errorType (others candidate List.mem_cons_self), List.length_cons,
        Nat.add_comm front.length, ← Nat.add_assoc]
      exact ih (fun other member => others other (List.mem_cons_of_mem _ member)) (index + 1)

namespace Config

variable {c : Config} {math : MathLibrary} {charge : Rat}

/-- The search for the error of a vehicle that has none. -/
private theorem findErrorIndex_of_settled (settled : c.batteryLowErrors = []) :
    findErrorIndex (lowBatteryError math charge) c.agv.currentState.errors 0 = .ok none := by
  have others : ∀ candidate ∈ c.agv.currentState.errors,
      candidate.error.errorType ≠ (lowBatteryError math charge).errorType := fun candidate member =>
    batteryLowErrors_eq_nil.mp settled candidate.error (List.mem_map_of_mem member)
  have passed : findErrorIndex (lowBatteryError math charge) (c.agv.currentState.errors ++ []) 0 =
      findErrorIndex (lowBatteryError math charge) [] _ := findErrorIndex_of_errorType others 0
  rwa [List.append_nil] at passed

private theorem updateErrors_add_batteryLowErrors (settled : c.batteryLowErrors = [])
    (reportImmediately : Bool) :
    (c.updateErrors (lowBatteryError math charge) .add reportImmediately).batteryLowErrors =
      [lowBatteryError math charge] := by
  have missed : findErrorIndex (lowBatteryError math charge) c.agv.currentState.errors 0 =
      .ok none := findErrorIndex_of_settled settled
  have added := (updateErrors_missed missed reportImmediately).2.1
  have settled : Vda5050.batteryLowErrors c.errors = [] := settled
  rw [batteryLowErrors, added, batteryLowErrors_append, settled, batteryLowErrors_lowBatteryError]
  rfl

private theorem updateErrors_remove_batteryLowErrors
    (pending : c.batteryLowErrors.Sublist [lowBatteryError math charge])
    (reportImmediately : Bool) :
    (c.updateErrors (lowBatteryError math charge) .remove reportImmediately).batteryLowErrors =
      [] := by
  rcases List.sublist_singleton.mp pending with settled | reported
  · rw [(updateErrors_missed (findErrorIndex_of_settled settled) reportImmediately).1]
    exact settled
  · -- the only low battery error is the first one that is found
    obtain ⟨front, back, split, others, -, rest⟩ := List.filter_eq_cons_iff.mp reported
    obtain ⟨before, after, errors, rfl, same⟩ := List.map_eq_append_iff.mp split
    obtain ⟨found, behind, rfl, equal, rfl⟩ := List.map_eq_cons_iff.mp same
    have unlike : ∀ candidate ∈ before,
        candidate.error.errorType ≠ (lowBatteryError math charge).errorType :=
      fun candidate member same => others candidate.error (List.mem_map_of_mem member)
        (decide_eq_true same)
    have compared : compareErrors found.error (lowBatteryError math charge) = .ok true := by
      rw [equal, Error.compareErrors_eq rfl rfl, Error.resembles_refl]
    have searched : findErrorIndex (lowBatteryError math charge) c.agv.currentState.errors 0 =
        .ok (some before.length) := by
      rw [errors, findErrorIndex_of_errorType unlike, findErrorIndex_cons, compared, Nat.zero_add]
      rfl
    have none : Vda5050.batteryLowErrors (before.map (·.error)) = [] :=
      List.filter_eq_nil_iff.mpr others
    have rest : Vda5050.batteryLowErrors (behind.map (·.error)) = [] := rest
    rw [batteryLowErrors, (updateErrors_found errors searched reportImmediately).2.1,
      batteryLowErrors_append, none, rest]
    rfl

end Config

/-! ## Calls of the adapter -/

private theorem suppliedErrorList_of_performs {call : ControllerCall} {event : Event}
    (performs : call.performs event) (silent : call.errorUpdate = none) (c : Config) :
    event.suppliedErrorList c = none := by
  have described : ∀ {linkedState : LinkedState} {state : PartialState},
      linkedState.describes state → state.errors = none := by
    intro linkedState state describes
    rw [of_decide_eq_true describes]
  have supplied : ∀ {state expected : PartialState}, decide (state = expected) →
      state.errors = expected.errors := by
    intro state expected same
    rw [of_decide_eq_true same]
  unfold ControllerCall.performs at performs
  split at performs
  · exact supplied (Bool.and_eq_true_iff.mp performs).1
  · exact supplied performs
  · exact supplied performs
  · exact supplied performs
  · cases silent
  · exact supplied performs
  · exact described performs
  · exact described (Bool.and_eq_true_iff.mp performs).2
  · exact supplied performs
  · rfl
  · rfl
  · cases performs

private theorem performs_of_updateErrors {error : Error} {mode : UpdateMode} {event : Event}
    (performs : ControllerCall.performs (.updateErrors error mode) event) :
    ∃ reportImmediately, event = .updateErrors error mode reportImmediately := by
  cases event with
  | updateErrors reported reportedMode reportImmediately =>
      simp only [ControllerCall.performs, Bool.and_eq_true, decide_eq_true_eq] at performs
      obtain ⟨rfl, rfl⟩ := performs
      exact ⟨reportImmediately, rfl⟩
  | _ => cases performs

/-- The error is one the vehicle reports. -/
def IsLowBatteryError (math : MathLibrary) (error : Error) : Prop :=
  ∃ charge, error = lowBatteryError math charge

private theorem VirtualAgvAdapter.ReportsErrors.isLowBatteryError {math : MathLibrary}
    {pending next : Option Error} {calls : List ControllerCall}
    (reports : ReportsErrors math pending calls next)
    (low : ∀ error ∈ pending, IsLowBatteryError math error) :
    ∀ error ∈ next, IsLowBatteryError math error := by
  induction reports with
  | nothing => exact low
  | other _ _ ih => exact ih low
  | add _ ih =>
      refine ih ?_
      rintro error ⟨⟩
      exact ⟨_, rfl⟩
  | remove _ ih => exact ih nofun

/-- The controller has at most the error that is pending after the calls. -/
private theorem Config.performAll_batteryLowErrors {math : MathLibrary}
    {pending next : Option Error} {calls : List ControllerCall} {events : List Event} (c : Config)
    (reports : ReportsErrors math pending calls next)
    (performs : List.Forall₂ (fun call event => ControllerCall.performs call event) calls events)
    (low : ∀ error ∈ pending, IsLowBatteryError math error)
    (known : c.batteryLowErrors.Sublist pending.toList) :
    (c.performAll events).batteryLowErrors.Sublist next.toList := by
  induction reports generalizing c events with
  | nothing =>
      cases performs
      exact known
  | other silent _ ih =>
      cases performs with
      | cons first rest =>
          have kept := perform_batteryLowErrors c (suppliedErrorList_of_performs first silent c)
          exact ih (c.perform _) rest low (kept.trans known)
  | @add charge _ _ _ ih =>
      cases performs with
      | cons first rest =>
          obtain ⟨reportImmediately, rfl⟩ := performs_of_updateErrors first
          have added : (c.updateErrors (lowBatteryError math charge) .add
              reportImmediately).batteryLowErrors = [lowBatteryError math charge] :=
            updateErrors_add_batteryLowErrors (List.sublist_nil.mp known) reportImmediately
          refine ih (c.updateErrors _ .add reportImmediately) rest ?_ ?_
          · rintro error ⟨⟩
            exact ⟨charge, rfl⟩
          · rw [added]
            exact List.Sublist.refl _
  | @remove error _ _ _ ih =>
      cases performs with
      | cons first rest =>
          obtain ⟨reportImmediately, rfl⟩ := performs_of_updateErrors first
          obtain ⟨charge, rfl⟩ := low error rfl
          have removed := updateErrors_remove_batteryLowErrors known reportImmediately
          refine ih (c.updateErrors _ .remove reportImmediately) rest nofun ?_
          rw [removed]
          exact List.Sublist.refl _

/-! ## Every run -/

namespace VirtualAgv

/-- While an error is pending, the vehicle does not run out of battery again, and the
battery is charged enough on a tick that reports the charge. -/
def ClearsOnReport (options : VirtualAgvAdapterOptions) (vehicle : VirtualAgv) :
    VirtualAgvEvent → Prop
  | .controller _ => True
  | .adapter event _ => vehicle.adapter.ClearsOnReport options event

/-- The step charges the battery by 10% above the threshold. -/
def ChargesEnough (options : VirtualAgvAdapterOptions) (vehicle : VirtualAgv)
    (event : VirtualAgvEvent) : Prop :=
  ∃ inputs callbacks ongoing, event = .adapter (.proceed inputs) callbacks ∧
    vehicle.adapter.ongoingTick = some ongoing ∧ ongoing.phase = .charge ∧
    vehicle.adapter.chargesEnough options ongoing.realInterval

/-- An error that is forgotten is not in the state of the controller, and none is as soon
as the battery has been charged. -/
structure ClearsBatteryLowError (options : VirtualAgvAdapterOptions) (vehicle : VirtualAgv)
    (event : VirtualAgvEvent) (next : VirtualAgv) : Prop where
  forgotten : ∀ error, vehicle.adapter.batteryLowError = some error →
    next.adapter.batteryLowError ≠ some error → error ∉ next.controller.errors
  charged : vehicle.ChargesEnough options event → ∀ error ∈ next.controller.errors,
    error.errorType ≠ batteryLowErrorType

/-- The low battery error in the state of the controller is the pending one. -/
structure KnowsBatteryLowError (math : MathLibrary) (vehicle : VirtualAgv) : Prop where
  known : vehicle.controller.batteryLowErrors.Sublist vehicle.adapter.batteryLowError.toList
  low : ∀ error ∈ vehicle.adapter.batteryLowError, IsLowBatteryError math error

variable {math : MathLibrary} {options : VirtualAgvAdapterOptions} {vehicle next : VirtualAgv}

theorem KnowsBatteryLowError.step {event : VirtualAgvEvent}
    (knows : KnowsBatteryLowError math vehicle) (clears : vehicle.ClearsOnReport options event)
    (stepped : vehicle.step math options event = some next) : KnowsBatteryLowError math next := by
  cases event with
  | controller event =>
      simp only [VirtualAgv.step] at stepped
      split at stepped
      · next own =>
        obtain ⟨controller, performed, rfl⟩ := Option.map_eq_some_iff.mp stepped
        obtain ⟨-, rfl⟩ := Config.step_eq_some.mp performed
        have none : event.suppliedErrorList vehicle.controller = none := by
          cases event <;> first | rfl | cases own
        exact ⟨(Config.perform_batteryLowErrors _ none).trans knows.known, knows.low⟩
      · cases stepped
  | adapter event callbacks =>
      simp only [VirtualAgv.step, Option.bind_eq_some_iff] at stepped
      obtain ⟨adapter, moved, stepped⟩ := stepped
      split at stepped
      · next performs =>
        obtain rfl := Option.some.inj stepped
        have reported : Reports math vehicle.adapter adapter := step_reports clears moved
        obtain ⟨calls, grown, reports⟩ := reported
        rw [grown, List.drop_left] at performs
        exact ⟨Config.performAll_batteryLowErrors _ reports performs knows.low knows.known,
          reports.isLowBatteryError knows.low⟩
      · cases stepped

theorem KnowsBatteryLowError.forgotten (knows : KnowsBatteryLowError math next) {error : Error}
    (low : IsLowBatteryError math error) (forgets : next.adapter.batteryLowError ≠ some error) :
    error ∉ next.controller.errors := by
  intro member
  obtain ⟨charge, rfl⟩ := low
  have reported : lowBatteryError math charge ∈ next.controller.batteryLowErrors :=
    List.mem_filter.mpr ⟨member, by simp [lowBatteryError, batteryLowErrorType]⟩
  have pending := knows.known.subset reported
  exact forgets (Option.mem_toList.mp pending)

/-- Whenever the adapter forgets its low battery error, and as soon as the battery has been
charged, the error is not in the state of the controller, in every run in which the error
is cleared on ticks that report the charge, and no second one is reported before. -/
theorem clearsBatteryLowError {limit : Nat} {events : List VirtualAgvEvent}
    {event : VirtualAgvEvent}
    (run : Library.Run (step math options) (ClearsOnReport options) (attached options limit)
      events vehicle)
    (clears : vehicle.ClearsOnReport options event)
    (stepped : vehicle.step math options event = some next) :
    ClearsBatteryLowError options vehicle event next := by
  have knows : KnowsBatteryLowError math vehicle := by
    refine run.invariant (KnowsBatteryLowError math) ⟨List.Sublist.refl _, ?_⟩ ?_
    · exact fun error pending => by cases pending
    · exact fun _ knows clears stepped => knows.step clears stepped
  have knowsNext : KnowsBatteryLowError math next := knows.step clears stepped
  constructor
  · exact fun error pending forgets => knowsNext.forgotten (knows.low error pending) forgets
  · rintro ⟨inputs, callbacks, ongoing, rfl, ticking, phase, enough⟩
    have settled : next.adapter.batteryLowError = none := by
      simp only [VirtualAgv.step, VirtualAgvAdapter.step, ticking, Option.map_some,
        Option.bind_some] at stepped
      split at stepped
      · obtain rfl := Option.some.inj stepped
        simp only [proceed, phase]
        exact advanceBatteryCharge_settled enough
      · cases stepped
    have known := knowsNext.known
    rw [settled] at known
    exact batteryLowErrors_eq_nil.mp (List.sublist_nil.mp known)

/-! ## A vehicle that runs out of battery -/

/-- The battery lasts for two seconds, and is charged by less than 1% in a second. -/
def emptyingOptions : VirtualAgvAdapterOptions where
  batteryMaxReach := 100
  initialBatteryCharge := 5 / 2
  fullBatteryChargeTime := 1 / 30
  tickRate := 1

def axisOrder : Order where
  orderId := "order"
  orderUpdateId := 0
  nodes := [axisNode 0 0, axisNode 2 10]
  edges := [axisEdge]

def secondTick (machines : Nat) : List VirtualAgvEvent :=
  .adapter (.onTick 1) [] :: List.replicate (machines + 3) (.adapter (.proceed {}) [])

def instantMessage (actionId actionType : String) : VirtualAgvEvent :=
  .controller (.instantActions
    { actions := [{ actionId, actionType, blockingType := .none }] } {})

def instantContext (actionId actionType : String) (activeOrderId : Option String) :
    ActionContext where
  action := { actionId, actionType, blockingType := .none }
  scope := .instant
  stopDriving := some false
  activeOrderId := activeOrderId

/-- The battery runs low on an edge, and the order is canceled for the vehicle to be
charged. -/
def lowBattery : List VirtualAgvEvent :=
  [.controller (.order axisOrder {}),
    .adapter (.traverseEdge { axisTraversal with
      endNode := some { axisNode 2 10 with ref := (0, 1) } }) [],
    .controller .proceed] ++
  secondTick 0 ++ secondTick 0 ++ secondTick 0 ++
  instantMessage "cancel" "cancelOrder" :: List.replicate 4 (.controller .proceed) ++
  [.adapter (.stopTraverse ⟨some (instantContext "cancel" "cancelOrder" (some "order"))⟩) [],
    .controller .proceed, .controller .proceed]

/-- The vehicle is charged until the tick before the error is to be cleared. -/
def chargingUp : List VirtualAgvEvent :=
  [instantMessage "charge" "startCharging", .controller .proceed, .controller .proceed,
    .adapter (.executeAction (instantContext "charge" "startCharging" none)) [],
    .controller .proceed, .controller .proceed] ++
  secondTick 1 ++ secondTick 1 ++ (List.replicate 12 (secondTick 0)).flatten ++
  (secondTick 0).dropLast

instance (vehicle : VirtualAgv) (event : VirtualAgvEvent) :
    Decidable (vehicle.ClearsOnReport emptyingOptions event) :=
  match event with
  | .controller _ => isTrue trivial
  | .adapter (.proceed _) _ =>
      inferInstanceAs (Decidable (∀ ongoing ∈ vehicle.adapter.ongoingTick, _ → _ ∧ _))
  | .adapter (.executeAction _) _ | .adapter (.finishEdgeAction _) _
  | .adapter (.cancelAction _) _ | .adapter (.traverseEdge _) _ | .adapter (.stopTraverse _) _
  | .adapter (.onTick _) _ => isTrue trivial

/-- No order arrives while an error is pending. -/
def KeepsOrder (vehicle : VirtualAgv) : VirtualAgvEvent → Prop
  | .controller (.order ..) => vehicle.adapter.batteryLowError = none
  | _ => True

instance (vehicle : VirtualAgv) (event : VirtualAgvEvent) : Decidable (vehicle.KeepsOrder event) := by
  unfold KeepsOrder
  split <;> infer_instance

/-- The last part of a tick, with the calls made in the course of it. -/
def lastPart (vehicle : VirtualAgv) : VirtualAgvEvent :=
  vehicle.calling axisMath emptyingOptions (.adapter (.proceed {}) [])

/-- The battery is charged enough on the 18th tick, which reports the charge. -/
theorem clearsBatteryLowError_lowBattery :
    ∃ events vehicle next, Library.Run (step axisMath emptyingOptions)
        (ClearsOnReport emptyingOptions) (attached emptyingOptions 5) events vehicle ∧
      vehicle.step axisMath emptyingOptions vehicle.lastPart = some next ∧
      (vehicle.adapter.batteryLowError.isSome ∧ next.adapter.batteryLowError = none) ∧
      ClearsBatteryLowError emptyingOptions vehicle vehicle.lastPart next := by
  have passed : (follow axisMath emptyingOptions (ClearsOnReport emptyingOptions)
      (attached emptyingOptions 5) (lowBattery ++ chargingUp)).any (fun vehicle =>
        vehicle.adapter.batteryLowError.isSome &&
          decide (vehicle.ClearsOnReport emptyingOptions vehicle.lastPart) &&
          (vehicle.step axisMath emptyingOptions vehicle.lastPart).any fun next =>
            next.adapter.batteryLowError.isNone) = true := by decide +kernel
  obtain ⟨events, vehicle, run, found⟩ := exists_run_of_follow passed
  simp only [Bool.and_eq_true, decide_eq_true_eq, Option.any_eq_true] at found
  obtain ⟨⟨pending, clears⟩, next, stepped, forgotten⟩ := found
  exact ⟨events, vehicle, next, run, stepped, ⟨pending, Option.isNone_iff_eq_none.mp forgotten⟩,
    clearsBatteryLowError run clears stepped⟩

/-- One tick later the vehicle starts charging, so that the battery is charged enough on the
19th tick, which does not report the charge. -/
theorem not_clearsBatteryLowError_lowBattery :
    ¬ ∀ (math : MathLibrary) (options : VirtualAgvAdapterOptions) (limit : Nat)
      (events : List VirtualAgvEvent) (vehicle next : VirtualAgv) (event : VirtualAgvEvent),
      Library.Run (step math options) KeepsOrder (attached options limit) events vehicle →
      vehicle.step math options event = some next →
      ClearsBatteryLowError options vehicle event next := by
  intro clears
  have passed : (follow axisMath emptyingOptions KeepsOrder (attached emptyingOptions 5)
      (lowBattery ++ secondTick 0 ++ chargingUp)).any (fun vehicle =>
        (vehicle.step axisMath emptyingOptions vehicle.lastPart).any fun next =>
          vehicle.adapter.batteryLowError.any fun error =>
            next.adapter.batteryLowError.isNone && next.controller.errors.contains error) =
      true := by decide +kernel
  obtain ⟨events, vehicle, run, found⟩ := exists_run_of_follow passed
  simp only [Option.any_eq_true, Bool.and_eq_true, List.contains_iff_mem] at found
  obtain ⟨next, stepped, error, pending, forgotten, contained⟩ := found
  have forgets : next.adapter.batteryLowError ≠ some error := by
    rw [Option.isNone_iff_eq_none.mp forgotten]
    exact nofun
  exact (clears axisMath emptyingOptions 5 events vehicle next _ run stepped).forgotten error
    pending forgets contained

end VirtualAgv

end Vda5050
