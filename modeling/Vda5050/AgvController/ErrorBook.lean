import Mathlib.Logic.Relation
import Vda5050.AgvController.Upkeep
import Vda5050.AgvController.InstantQueue

/-!
# The book of errors

The errors of the current state, those of them that are counted as errors of
instant actions, and the errors of the published states. Every step of the
controller is a sequence of a few changes of this book.
-/

set_option autoImplicit false

namespace Vda5050

open AgvController

/-! ## Changes of the book -/

structure ErrorBook where
  errors : List StateError
  counted : List (Nat × Nat)
  nextRef : Nat
  limit : Nat
  published : List State

def Config.errorBook (c : Config) : ErrorBook where
  errors := c.agv.currentState.errors
  counted := c.agv.instantActionsErroredPublishCount
  nextRef := c.agv.nextErrorRef
  limit := c.agv.finalInstantActionStateChangePublishCount
  published := c.published

/-- An error is added, possibly counted as one of an instant action, the errors are
supplied by the adapter, an order is accepted, or a publication has completed. -/
inductive ErrorChange where
  | add (error : Error)
  | count (error : Error)
  | supply (errors : List Error)
  | accept (keepsActionErrors : Bool)
  | complete
  deriving DecidableEq, Repr

namespace ErrorBook

variable (book : ErrorBook)

/-- Append a new error object. -/
def add (error : Error) : ErrorBook :=
  { book with
    errors := book.errors ++ [{ ref := book.nextRef, error }]
    nextRef := book.nextRef + 1 }

def isCounted (error : StateError) : Bool := book.counted.any (·.1 = error.ref)

/-- The counted error is in the current state. -/
def isReported (entry : Nat × Nat) : Bool := book.errors.any (·.ref = entry.1)

/-- The book after a publication has completed. -/
def complete : ErrorBook :=
  { book with
    errors := book.errors.filter fun error =>
      !(book.counted.filter fun entry =>
        book.isReported entry && (Config.countPublication book.limit entry.2).isNone).any
          (·.1 = error.ref)
    counted := book.counted.filterMap fun entry =>
      if book.isReported entry then
        (Config.countPublication book.limit entry.2).map (entry.1, ·)
      else some entry }

def apply : ErrorChange → ErrorBook
  | .add error => book.add error
  | .count error => { book.add error with counted := setEntry book.nextRef 0 book.counted }
  | .supply errors =>
      { book with
        errors := errors.zipIdx.map fun entry =>
          { ref := book.nextRef + entry.2, error := entry.1 }
        nextRef := book.nextRef + errors.length }
  | .accept keepsActionErrors =>
      { book with
        errors := book.errors.filter fun error =>
          book.isCounted error ||
            (keepsActionErrors &&
              (error.error.errorReferences.getD []).any (·.referenceKey = "actionId")) }
  | .complete => book.complete

/-- The allowed changes. Identities may be skipped, and states published, at any time. -/
inductive Step (allowed : ErrorChange → Prop) : ErrorBook → ErrorBook → Prop where
  | skip (book : ErrorBook) {nextRef : Nat} :
      book.nextRef ≤ nextRef → Step allowed book { book with nextRef }
  | publish (book : ErrorBook) {state : State} :
      state.errors = book.errors →
      Step allowed book { book with published := book.published ++ [state] }
  | change (book : ErrorBook) {change : ErrorChange} :
      allowed change → Step allowed book (book.apply change)

end ErrorBook

/-- The book of a configuration is led to that of the next one by allowed changes. -/
def ErrorSteps (allowed : ErrorChange → Prop) (c next : Config) : Prop :=
  Relation.ReflTransGen (ErrorBook.Step allowed) c.errorBook next.errorBook

namespace ErrorSteps

variable {allowed : ErrorChange → Prop} {c middle next : Config}

theorem of_same (same : next.errorBook = c.errorBook) : ErrorSteps allowed c next := by
  rw [ErrorSteps, same]

theorem refl (c : Config) : ErrorSteps allowed c c := of_same rfl

theorem trans (first : ErrorSteps allowed c middle) (second : ErrorSteps allowed middle next) :
    ErrorSteps allowed c next := Relation.ReflTransGen.trans first second

/-- Nothing happens to the errors before the rest of the step. -/
theorem after_same (later : ErrorSteps allowed middle next)
    (same : middle.errorBook = c.errorBook) : ErrorSteps allowed c next :=
  trans (of_same same) later

/-- Nothing happens to the errors after the first part of the step. -/
private theorem before_same (earlier : ErrorSteps allowed c middle)
    (same : next.errorBook = middle.errorBook) : ErrorSteps allowed c next :=
  trans earlier (of_same same)

theorem skip {nextRef : Nat} (later : c.agv.nextErrorRef ≤ nextRef)
    (same : next.errorBook = { c.errorBook with nextRef }) : ErrorSteps allowed c next := by
  rw [ErrorSteps, same]
  exact .single (.skip _ later)

theorem change {change : ErrorChange} (allows : allowed change)
    (same : next.errorBook = c.errorBook.apply change) : ErrorSteps allowed c next := by
  rw [ErrorSteps, same]
  exact .single (.change _ allows)

/-- States are published while the errors stay the same. -/
private theorem of_published (states : List State)
    (errors : ∀ state ∈ states, state.errors = c.agv.currentState.errors) (same : next.errorBook =
      { c.errorBook with published := c.errorBook.published ++ states }) :
    ErrorSteps allowed c next := by
  rw [ErrorSteps, same]
  have publishes : ∀ published : List State,
      Relation.ReflTransGen (ErrorBook.Step allowed) { c.errorBook with published }
        { c.errorBook with published := published ++ states } := by
    clear same
    induction states with
    | nil => simpa using fun published => Relation.ReflTransGen.refl
    | cons state states ih =>
        intro published
        have first : ErrorBook.Step allowed { c.errorBook with published }
            { c.errorBook with published := published ++ [state] } :=
          .publish { c.errorBook with published } (errors state List.mem_cons_self)
        have rest := ih (fun other member => errors other (List.mem_cons_of_mem _ member))
          (published ++ [state])
        rw [List.append_assoc] at rest
        exact .head first rest
  exact publishes _

theorem of_move (move : OrderMove c next) : ErrorSteps allowed c next := by
  obtain ⟨_, _, _, _, _, agv⟩ := move.agv
  obtain ⟨states, published, errors⟩ := move.published
  refine of_published states errors ?_
  simp only [Config.errorBook, agv, published]

theorem mono {allowed' : ErrorChange → Prop} (steps : ErrorSteps allowed c next)
    (weaker : ∀ change, allowed change → allowed' change) : ErrorSteps allowed' c next := by
  refine Relation.ReflTransGen.mono (fun book after step => ?_) _ _ steps
  cases step with
  | skip later => exact .skip _ later
  | publish same => exact .publish _ same
  | change allows => exact .change _ (weaker _ allows)

/-- What every allowed change preserves of a book. -/
theorem invariant (inv : ErrorBook → Prop) (steps : ErrorSteps allowed c next)
    (initial : inv c.errorBook)
    (preserved : ∀ {book after : ErrorBook}, inv book → ErrorBook.Step allowed book after →
      inv after) : inv next.errorBook := by
  have general : ∀ {book after : ErrorBook},
      Relation.ReflTransGen (ErrorBook.Step allowed) book after → inv book → inv after := by
    intro book after steps holds
    induction steps with
    | refl => exact holds
    | tail _ step ih => exact preserved ih step
  exact general steps initial

end ErrorSteps

/-! ## Updates of the state -/

namespace Config

variable {allowed : ErrorChange → Prop} (c : Config)

theorem publishCurrentState_errorSteps : ErrorSteps allowed c c.publishCurrentState := by
  unfold publishCurrentState
  split
  · exact .of_published [c.agv.currentState] (by simp) (by simp [errorBook])
  · exact .refl c

/-- An update that does not concern the errors. -/
private theorem updateState_errorSteps {newPartialState : PartialState}
    (none : newPartialState.errors = none) (publishImmediately : Bool) :
    ErrorSteps allowed c (c.updateState newPartialState publishImmediately) := by
  have merged : ErrorSteps allowed c (c.mergeState newPartialState) :=
    .of_same (by simp [errorBook, mergeState, State.merge, none])
  cases publishImmediately with
  | false => exact merged
  | true => exact merged.trans (publishCurrentState_errorSteps _)

/-- An update by which the given change is made. -/
private theorem updateState_errorSteps_of_change {newPartialState : PartialState}
    {change : ErrorChange} (allows : allowed change) {agv : AgvController}
    (same : ({ c with agv := agv }.mergeState newPartialState).errorBook =
      c.errorBook.apply change) (publishImmediately : Bool) :
    ErrorSteps allowed c ({ c with agv := agv }.updateState newPartialState publishImmediately) := by
  have merged : ErrorSteps allowed c ({ c with agv := agv }.mergeState newPartialState) :=
    .change allows same
  cases publishImmediately with
  | false => exact merged
  | true => exact merged.trans (publishCurrentState_errorSteps _)

private theorem addError_errorSteps {error : Error} (allows : allowed (.add error)) :
    ErrorSteps allowed c (c.addError error) :=
  updateState_errorSteps_of_change c allows (by simp [errorBook, mergeState, State.merge,
    ErrorBook.apply, ErrorBook.add]) true

private theorem addInstantActionError_errorSteps {error : Error} (allows : allowed (.count error)) :
    ErrorSteps allowed c (c.addInstantActionError error) :=
  updateState_errorSteps_of_change c allows (by simp [errorBook, mergeState, State.merge,
    ErrorBook.apply, ErrorBook.add]) true

private theorem rejectOrder_errorSteps {error : Error} (allows : allowed (.add error)) :
    ErrorSteps allowed c (c.rejectOrder error) :=
  (addError_errorSteps c allows).before_same rfl

/-- The errors of a partial state are supplied as new objects. -/
private theorem updatePartialState_errorSteps {newState : PartialState}
    (allows : ∀ errors, newState.errors = some errors → allowed (.supply (errors.map (·.error))))
    (reportImmediately : Bool) :
    ErrorSteps allowed c (c.updatePartialState newState reportImmediately) := by
  unfold updatePartialState AgvController.cloneState
  cases supplied : newState.errors with
  | none => exact updateState_errorSteps c supplied reportImmediately
  | some errors =>
      refine updateState_errorSteps_of_change c (allows errors supplied) ?_ reportImmediately
      simp [errorBook, mergeState, State.merge, ErrorBook.apply, cloneErrors, List.zipIdx_map]

private theorem updateErrors_errorSteps {error : Error} {mode : UpdateMode}
    (allows : ∀ errors, newErrors c.agv.currentState.errors error mode = .ok (some errors) →
      allowed (.supply (errors.map (·.error)))) (reportImmediately : Bool) :
    ErrorSteps allowed c (c.updateErrors error mode reportImmediately) := by
  unfold updateErrors
  split
  · exact .of_same rfl
  · exact .refl c
  · next errors changed =>
    refine updatePartialState_errorSteps c (fun supplied same => ?_) reportImmediately
    obtain rfl := Option.some.inj same
    exact allows errors changed

/-! ## Actions -/

private theorem instantActionEnded_errorSteps (action : Action) :
    ErrorSteps allowed c (c.instantActionEnded action) := by
  obtain ⟨frames, same, -⟩ := instantActionEnded_eq c action
  rw [same]
  exact .of_same rfl

private theorem orderActionCanceled_errorSteps : ErrorSteps allowed c c.orderActionCanceled := by
  unfold orderActionCanceled
  split
  · exact .of_same rfl
  · split
    · exact .of_same rfl
    · exact .refl c

section Reports

variable (failures : ∀ context change error, actionError context change = some error →
  allowed (.add error))
include failures

/-- A linked state replaces the errors, also that of the failed action. -/
private theorem reportActionStatus_errorSteps (context : ActionContext)
    {change : ActionStatusChangeInfo} (linked : ∀ errors, change.linkedState.errors = some errors →
      allowed (.supply (errors.map (·.error)))) :
    ErrorSteps allowed c (c.reportActionStatus context change) := by
  have skipped : ErrorSteps allowed c
      { c with agv := { c.agv with nextErrorRef := c.agv.nextErrorRef + 1 } } :=
    .skip (Nat.le_succ _) rfl
  unfold reportActionStatus AgvController.cloneState
  cases supplied : change.linkedState.errors with
  | some errors =>
      refine skipped.trans ((updateState_errorSteps_of_change _ (linked errors supplied) ?_
        true).before_same rfl)
      simp [errorBook, mergeState, State.merge, PartialState.assign, ErrorBook.apply, cloneErrors,
        List.zipIdx_map]
  | none =>
      cases failed : actionError context change with
      | none =>
          exact skipped.trans ((updateState_errorSteps _ (by simp [PartialState.assign, supplied])
            true).before_same rfl)
      | some error =>
          refine (updateState_errorSteps_of_change c (failures _ _ error failed) ?_
            true).before_same rfl
          simp [errorBook, mergeState, State.merge, PartialState.assign, supplied, ErrorBook.apply,
            ErrorBook.add]

private theorem updateActionStatus_errorSteps (context : ActionContext)
    {change : ActionStatusChangeInfo} (linked : ∀ errors, change.linkedState.errors = some errors →
      allowed (.supply (errors.map (·.error)))) :
    ErrorSteps allowed c (c.updateActionStatus context change) := by
  refine (reportActionStatus_errorSteps c failures context linked).trans ?_
  unfold updateActionStatus
  simp only
  split
  · exact .refl _
  · split
    · exact instantActionEnded_errorSteps _ _
    · split
      · exact orderActionCanceled_errorSteps _
      · exact .of_move (nodeActionEnded_move _ _ _)
    · split
      · exact orderActionCanceled_errorSteps _
      · exact .of_move (edgeActionEnded_move _ _ _)

private theorem cancelOrder_errorSteps (context : ActionContext) :
    ErrorSteps allowed c (c.cancelOrder context) := by
  have started : ErrorSteps allowed c (c.cancelationStarted context) :=
    (reportActionStatus_errorSteps _ failures context (by simp)).after_same rfl
  rw [cancelOrder_eq]
  exact started.before_same rfl

private theorem processInstantAction_errorSteps (action : Option Action) (stopDriving : Bool) :
    ErrorSteps allowed c (c.processInstantAction action stopDriving) := by
  unfold processInstantAction
  cases action with
  | none => exact .of_same rfl
  | some action =>
      have counting : ErrorSteps allowed c
          ((c.observe (.instantActionProcessed (some action))).resetEndedPublishCount action) :=
        .of_same rfl
      simp only
      split
      · exact .of_same rfl
      split
      · exact counting.trans (updateActionStatus_errorSteps _ failures _ (by simp))
      · split
        · exact counting.trans (cancelOrder_errorSteps _ failures _)
        · exact counting.before_same rfl

private theorem resume_errorSteps (frame : Frame) : ErrorSteps allowed c (c.resume frame) := by
  cases frame with
  | adapter => exact .refl c
  | finishEdgeActions | nodeTraversed | processNodeAction | processEdgeAction =>
      exact .of_move (resume_order_move c rfl)
  | cancelOrderActions states hasActionsToBeCanceled =>
      cases states with
      | nil =>
          cases hasActionsToBeCanceled with
          | true => exact .refl c
          | false => exact .of_same rfl
      | cons state states =>
          simp only [resume, cancelOrderAction]
          split
          · split <;> exact .of_same rfl
          · exact .of_same rfl
  | processInstantActionChunk afterAction skipInitialHard =>
      simp only [resume, processInstantActionChunk]
      split
      · split <;> exact .of_same rfl
      · exact .of_same rfl
  | processInstantActions i stopIndex stopDriving =>
      simp only [resume]
      split
      · exact (processInstantAction_errorSteps _ failures _ _).after_same rfl
      · exact .refl c
  | processInstantAction action stopDriving =>
      exact processInstantAction_errorSteps c failures action stopDriving
  | resumePausedNode =>
      simp only [resume, resumePausedNode]
      split
      · exact .refl c
      · split
        · exact .of_same rfl
        · exact (ErrorSteps.of_move (processNode_move _ _ _)).after_same rfl

private theorem adapterReports_errorSteps (context : ActionContext)
    {change : ActionStatusChangeInfo} (linked : ∀ errors, change.linkedState.errors = some errors →
      allowed (.supply (errors.map (·.error)))) :
    ErrorSteps allowed c (c.adapterReports context change) := by
  unfold adapterReports updateActionStatusCallback
  simp only
  split <;> exact (updateActionStatus_errorSteps _ failures context linked).after_same rfl

private theorem stopped_errorSteps (context : StopTraverseContext) :
    ErrorSteps allowed c (c.stopped context) := by
  have emptied : ErrorSteps allowed c (c.canceled context) :=
    (updateState_errorSteps
      { c.observe (.stopped context c.agv.cancelOrderContext) with
        agv := { c.agv with cancelOrderContext := none } } rfl false).after_same rfl
  cases pending : c.agv.cancelOrderContext with
  | none =>
      have crashed : c.stopped context = (c.canceled context).throwTypeError := by
        unfold stopped Config.canceled
        simp only [pending]
        rfl
      rw [crashed]
      exact emptied.before_same rfl
  | some cancelOrderContext =>
      rw [stopped_some pending]
      exact emptied.trans (updateActionStatus_errorSteps _ failures _ (by simp))

end Reports

/-! ## Messages -/

private theorem acceptedState_errors (agv : AgvController) (trajectory : TrajectoryHandler)
    (order : Order) (mode : AcceptMode) :
    (agv.acceptedState trajectory order mode).errors =
      some (agv.getNonOrderRejectionErrors (mode = .stitch)) := by
  cases mode <;> rfl

private theorem beginOrder_errorSteps (trajectory : TrajectoryHandler) (order : Order)
    {mode : AcceptMode} (allows : allowed (.accept (mode = .stitch))) :
    ErrorSteps allowed c (c.beginOrder trajectory order mode) := by
  have updated : ErrorSteps allowed (c.observe (.orderAccepted mode order))
      (c.beginOrder trajectory order mode) := by
    refine updateState_errorSteps_of_change _ allows ?_ true
    simp [errorBook, mergeState, State.merge, observe, acceptedState_errors, ErrorBook.apply,
      getNonOrderRejectionErrors, isErroredInstantAction, ErrorBook.isCounted]
  exact updated.after_same rfl

private theorem stitchOrder_errorSteps (trajectory : TrajectoryHandler) (currentOrder : Order)
    (baseEnd : Node) (order : Order) (allows : allowed (.accept true)) :
    ErrorSteps allowed c (c.stitchOrder trajectory currentOrder baseEnd order) := by
  have updated : ErrorSteps allowed
      ((c.observe (.orderAccepted .stitch order)).replaceNode (stitchedBaseEnd baseEnd order))
      (c.stitchOrder trajectory currentOrder baseEnd order) := by
    refine updateState_errorSteps_of_change _ allows ?_ true
    simp [errorBook, mergeState, State.merge, observe, replaceNode, acceptedState_errors,
      ErrorBook.apply, getNonOrderRejectionErrors, isErroredInstantAction, ErrorBook.isCounted]
  exact updated.after_same rfl

private theorem acceptOrder_errorSteps (trajectory : TrajectoryHandler) (order : Order)
    {mode : AcceptMode} (allows : allowed (.accept (mode = .stitch))) :
    ErrorSteps allowed c (c.acceptOrder trajectory order mode) := by
  have begun : ErrorSteps allowed c (c.beginOrder trajectory order mode) :=
    beginOrder_errorSteps c trajectory order allows
  unfold acceptOrder
  split
  · simp only
    split
    · exact begun.before_same rfl
    · exact begun.trans (.of_move (processNode_move _ _ _))
  · simp only
    split
    · exact begun.before_same rfl
    · exact begun.trans (.of_move (processNode_move _ _ _))
  · split
    · exact .of_same rfl
    · split
      · exact .of_same rfl
      · next currentOrder _ _ baseEnd _ =>
        have stitched : ErrorSteps allowed c (c.stitchOrder trajectory currentOrder baseEnd order) :=
          stitchOrder_errorSteps c trajectory currentOrder baseEnd order allows
        simp only
        split
        · exact stitched.trans (.of_move (processEdge_move _ _))
        · exact stitched

private theorem acceptInstantActions_errorSteps {adapter : AdapterAnswers}
    (rejections : ∀ agv action error, checkInstantActionExecutable agv adapter action = some error →
      allowed (.count error)) (actions : List Action) :
    ErrorSteps allowed c (c.acceptInstantActions adapter actions) := by
  induction actions generalizing c with
  | nil => exact .refl c
  | cons action actions ih =>
      unfold acceptInstantActions
      split
      · next error notExecutable =>
        have rejected : ErrorSteps allowed c
            ((c.addInstantActionError error).observe (.instantActionRejected action)) :=
          (addInstantActionError_errorSteps c (rejections _ _ error notExecutable)).before_same rfl
        exact rejected.trans (ih _)
      · exact (ih _).after_same rfl

private theorem processInstantActions_errorSteps {adapter : AdapterAnswers}
    (rejections : ∀ agv action error, checkInstantActionExecutable agv adapter action = some error →
      allowed (.count error)) (message : InstantActions) :
    ErrorSteps allowed c (c.processInstantActions message adapter) := by
  have accepted := acceptInstantActions_errorSteps c rejections message.actions
  unfold processInstantActions
  simp only
  split
  · exact .of_same rfl
  split
  · exact accepted
  · exact accepted.before_same rfl

/-- The counts of the errors in the state, and these errors, are updated. -/
private theorem cleanupInstantActionStates_errorSteps (allows : allowed .complete) :
    ErrorSteps allowed c c.cleanupInstantActionStates :=
  .change allows rfl

private theorem updateEdgeTraversed_errorSteps (context : TraverseEdgeContext) :
    ErrorSteps allowed c (c.updateEdgeTraversed context) := by
  unfold updateEdgeTraversed
  split
  · exact .refl c
  · split
    · exact .of_same rfl
    · exact .of_move (processNode_move _ _ _)

end Config

/-! ## Every step -/

/-- The list of errors that the adapter supplies, if any. -/
def Event.suppliedErrorList (c : Config) : Event → Option (List StateError)
  | .updateActionStatus _ change => change.linkedState.errors
  | .updatePartialState newState _ => newState.errors
  | .updateErrors error mode _ =>
      match newErrors c.agv.currentState.errors error mode with
      | .error _ => none
      | .ok errors => errors
  | _ => none

/-- The changes that an event brings about. -/
inductive Event.Changes (c : Config) : Event → ErrorChange → Prop where
  | failedAction {event : Event} {context : ActionContext} {change : ActionStatusChangeInfo}
      {error : Error} (failed : Config.actionError context change = some error) :
      Changes c event (.add error)
  | rejectedOrder {message : Order} {adapter : AdapterAnswers} {error : Error}
      (decided : c.agv.decideOrder adapter (Config.allocateNodes c.received message) =
        .reject error) : Changes c (.order message adapter) (.add error)
  | acceptedOrder {message : Order} {adapter : AdapterAnswers} {mode : AcceptMode}
      (decided : c.agv.decideOrder adapter (Config.allocateNodes c.received message) =
        .accept mode) : Changes c (.order message adapter) (.accept (mode = .stitch))
  | invalidOrder {payload : Json} {message : String} {error : Error}
      (created : createInvalidOrderError payload ("invalid order: " ++ message) = .ok error) :
      Changes c (.invalidOrder payload message) (.add error)
  | rejectedAction {message : InstantActions} {adapter : AdapterAnswers} {agv : AgvController}
      {action : Action} {error : Error}
      (notExecutable : Config.checkInstantActionExecutable agv adapter action = some error) :
      Changes c (.instantActions message adapter) (.count error)
  | invalidInstantActions {payload : Json} {message : String} {error : Error}
      (created : createInstantActionsValidationError payload
        ("invalid instant actions: " ++ message) = .ok error) :
      Changes c (.invalidInstantActions payload message) (.count error)
  | supplied {event : Event} {errors : List StateError}
      (supplied : event.suppliedErrorList c = some errors) :
      Changes c event (.supply (errors.map (·.error)))
  | published : Changes c (.published true) .complete

theorem Config.perform_errorSteps (c : Config) (event : Event) :
    ErrorSteps (event.Changes c) c (c.perform event) := by
  have failures : ∀ context change error, actionError context change = some error →
      event.Changes c (.add error) := fun _ _ _ => .failedAction
  cases event with
  | proceed =>
      simp only [perform, proceed]
      split
      · exact .refl c
      · exact (resume_errorSteps _ failures _).after_same rfl
  | order order adapter =>
      simp only [perform, processOrder]
      split
      · next decided => exact (rejectOrder_errorSteps _ (.rejectedOrder decided)).after_same rfl
      · have updated : ErrorSteps (Event.Changes c (.order order adapter)) c
            (Config.updateState { c with received := c.received + 1 } {} true) :=
          (updateState_errorSteps _ rfl true).after_same rfl
        exact updated.before_same rfl
      · next decided =>
        exact (acceptOrder_errorSteps _ _ _ (.acceptedOrder decided)).after_same rfl
  | invalidOrder payload message =>
      simp only [perform, processInvalidOrder]
      split
      · exact .of_same rfl
      · next created => exact rejectOrder_errorSteps c (.invalidOrder created)
  | instantActions message adapter =>
      exact processInstantActions_errorSteps c (fun _ _ _ => .rejectedAction) message
  | invalidInstantActions payload message =>
      simp only [perform, processInvalidInstantActions]
      split
      · exact .of_same rfl
      · next created => exact addInstantActionError_errorSteps c (.invalidInstantActions created)
  | updateActionStatus context change =>
      exact adapterReports_errorSteps c failures context fun _ same => .supplied same
  | edgeTraversed context => exact (updateEdgeTraversed_errorSteps _ context).after_same rfl
  | stopped context => exact (stopped_errorSteps _ failures context).after_same rfl
  | drivingToNextNode nextNode => exact updateState_errorSteps c rfl true
  | updatePartialState newState reportImmediately =>
      exact updatePartialState_errorSteps c (fun _ same => .supplied same) reportImmediately
  | updateErrors error mode reportImmediately =>
      exact updateErrors_errorSteps c (fun errors changed => .supplied (by
        simp [Event.suppliedErrorList, changed])) reportImmediately
  | publishTimer => exact publishCurrentState_errorSteps c
  | published succeeded =>
      cases succeeded with
      | false => exact .of_same rfl
      | true => exact (cleanupInstantActionStates_errorSteps _ .published).after_same rfl
  | connection online =>
      simp only [perform]
      split
      · exact (publishCurrentState_errorSteps _).after_same rfl
      · exact .of_same rfl

end Vda5050
