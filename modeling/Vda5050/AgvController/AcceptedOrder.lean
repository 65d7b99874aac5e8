import Vda5050.AgvController.ErrorObjects

/-!
# Errors kept on acceptance of an order

When an order is accepted the errors of orders rejected before are to be
dropped, so that the master controller does not take the accepted order for
one of them.
-/

set_option autoImplicit false

namespace Vda5050

open AgvController MasterController

/-- Errors counted as errors of instant actions reject no order. -/
structure ErrorBooks (agv : AgvController) : Prop where
  counted : ∀ ref ∈ agv.erroredPublishCountKeys, ref < agv.nextErrorRef
  known : ∀ error ∈ agv.currentState.errors, error.ref < agv.nextErrorRef
  instant : ∀ error ∈ agv.currentState.errors, error.ref ∈ agv.erroredPublishCountKeys →
    rejectedOrder error.error = none

theorem ErrorBooks.initial (limit : Nat) : ErrorBooks (Config.initial limit).agv where
  counted := by simp [Config.initial, AgvController.initial, erroredPublishCountKeys]
  known := by simp [Config.initial, AgvController.initial]
  instant := by simp [Config.initial, AgvController.initial]

theorem ErrorBooks.move {allowed : Error → Prop} {c next : Config} (books : ErrorBooks c.agv)
    (move : ErrorsMove allowed c next) : ErrorBooks next.agv where
  counted ref member := by
    rcases move.counted ref member with old | ⟨-, before⟩
    · exact Nat.lt_of_lt_of_le (books.counted ref old) move.nextErrorRef
    · exact before
  known error member := by
    rcases move.errors error member with old | new
    · exact Nat.lt_of_lt_of_le (books.known error old) move.nextErrorRef
    · exact new.before
  instant error member known := by
    rcases move.errors error member with old | ⟨after, -, -, counted⟩
    · rcases move.counted error.ref known with known | ⟨late, -⟩
      · exact books.instant error old known
      · exact absurd (books.known error old) (Nat.not_lt.mpr late)
    · rcases counted known with known | harmless
      · exact absurd (books.counted error.ref known) (Nat.not_lt.mpr after)
      · exact harmless

theorem ErrorBooks.of_run {condition : Config → Event → Prop} {limit : Nat} {events : List Event}
    {c : Config} (run : Library.Run Config.step condition (Config.initial limit) events c) :
    ErrorBooks c.agv := by
  refine run.invariant (fun c => ErrorBooks c.agv) (.initial limit) ?_
  intro events c event next _ books _ stepped
  obtain ⟨-, rfl⟩ := Config.step_eq_some.mp stepped
  exact books.move (Config.perform_errorsMove c event)

/-! ## The errors left by an accepted order -/

theorem OrderMove.errors {c next : Config} (move : OrderMove c next) :
    next.agv.currentState.errors = c.agv.currentState.errors := by
  obtain ⟨_, _, _, _, _, agv⟩ := move.agv
  rw [agv]

/-- An accepted order keeps errors of instant actions, and, if it is stitched,
errors that refer to an action. -/
private theorem processOrder_errors {c : Config} {order : Order} {adapter : AdapterAnswers}
    {mode : AcceptMode}
    (decided : c.agv.decideOrder adapter (Config.allocateNodes c.received order) = .accept mode) :
    (c.processOrder order adapter).agv.currentState.errors =
      c.agv.getNonOrderRejectionErrors (mode = .stitch) := by
  have stitches := (decideOrder_accept decided).stitches
  unfold Config.processOrder
  simp only [decided]
  generalize Config.allocateNodes c.received order = order at decided stitches ⊢
  have begun : mode ≠ .stitch →
      (Config.beginOrder { c with received := c.received + 1 } adapter.trajectory order
        mode).agv.currentState.errors = c.agv.getNonOrderRejectionErrors (mode = .stitch) := by
    intro notStitch
    cases mode with
    | stitch => exact absurd rfl notStitch
    | new | update => simp [Config.beginOrder, Config.observe, State.merge, acceptedState]
  cases mode with
  | new | update =>
      simp only [Config.acceptOrder]
      split
      · exact begun (by simp)
      · exact (Config.processNode_move _ _ _).errors.trans (begun (by simp))
  | stitch =>
      obtain ⟨currentOrder, baseEnd, current, found⟩ := isOrderBaseStitching_spec (stitches rfl).2
      have stitched : (Config.stitchOrder { c with received := c.received + 1 } adapter.trajectory
          currentOrder baseEnd order).agv.currentState.errors =
            c.agv.getNonOrderRejectionErrors (AcceptMode.stitch = .stitch) := by
        simp [Config.stitchOrder, Config.observe, Config.replaceNode, State.merge, acceptedState]
      simp only [Config.acceptOrder, current, found]
      split
      · exact (Config.processEdge_move _ _).errors.trans stitched
      · exact stitched

def Error.refersToAction (error : Error) : Bool :=
  (error.errorReferences.getD []).any (·.referenceKey = "actionId")

private theorem mem_getNonOrderRejectionErrors {agv : AgvController} {keep : Bool}
    {error : StateError} :
    error ∈ agv.getNonOrderRejectionErrors keep ↔ error ∈ agv.currentState.errors ∧
      (error.ref ∈ agv.erroredPublishCountKeys ∨ keep ∧ error.error.refersToAction) := by
  simp [getNonOrderRejectionErrors, isErroredInstantAction, erroredPublishCountKeys,
    Error.refersToAction]

private theorem ErrorBooks.not_isRejectionOf {agv : AgvController} (books : ErrorBooks agv)
    {error : StateError} (member : error ∈ agv.currentState.errors)
    (counted : error.ref ∈ agv.erroredPublishCountKeys) (order : Order) :
    isRejectionOf order error.error = false := by
  simp [isRejectionOf, books.instant error member counted]

/-- An accepted order is not announced as rejected unless it is stitched while
an error that refers to an action rejects an order with the same ids. -/
theorem accepted_notRejected_iff {limit : Nat} {events : List Event} {c next : Config}
    (run : Library.Run Config.step (fun _ _ => True) (Config.initial limit) events c)
    {order : Order} {adapter : AdapterAnswers} {mode : AcceptMode}
    (accepted : c.agv.decideOrder adapter (Config.allocateNodes c.received order) = .accept mode)
    (stepped : c.step (.order order adapter) = some next) :
    (∀ error ∈ next.agv.currentState.errors, isRejectionOf order error.error = false) ↔
      (mode = .stitch → ∀ error ∈ c.agv.currentState.errors, error.error.refersToAction →
        isRejectionOf order error.error = false) := by
  have books := ErrorBooks.of_run run
  obtain ⟨-, rfl⟩ := Config.step_eq_some.mp stepped
  simp only [Config.perform, processOrder_errors accepted, mem_getNonOrderRejectionErrors]
  constructor
  · rintro notRejected rfl error member refers
    exact notRejected error ⟨member, .inr ⟨by simp, refers⟩⟩
  · rintro notRejected error ⟨member, counted | ⟨keep, refers⟩⟩
    · exact books.not_isRejectionOf member counted order
    · exact notRejected (by simpa using keep) error member refers

/-! ## The States published on receipt of an order -/

/-- The States published by a step have the errors that are left after it. -/
def PublishesErrors (c next : Config) : Prop :=
  ∃ states, next.published = c.published ++ states ∧
    ∀ state ∈ states, state.errors = next.agv.currentState.errors

namespace PublishesErrors

variable {c middle next : Config}

theorem of_same (published : next.published = c.published) : PublishesErrors c next :=
  ⟨[], by simp [published], by simp⟩

theorem updateState (c : Config) (newPartialState : PartialState) (publishImmediately : Bool) :
    PublishesErrors c (c.updateState newPartialState publishImmediately) := by
  obtain ⟨states, published, same⟩ :=
    Config.updateState_published c newPartialState publishImmediately
  refine ⟨states, published, fun state member => ?_⟩
  rw [same state member, Config.updateState_agv]

theorem after_same (later : PublishesErrors middle next)
    (published : middle.published = c.published) : PublishesErrors c next := by
  obtain ⟨states, appended, same⟩ := later
  exact ⟨states, published ▸ appended, same⟩

/-- The vehicle goes on with the order. -/
theorem move (earlier : PublishesErrors c middle) (move : OrderMove middle next) :
    PublishesErrors c next := by
  obtain ⟨states, published, same⟩ := earlier
  obtain ⟨later, appended, same'⟩ := move.published
  refine ⟨states ++ later, by rw [appended, published, List.append_assoc], fun state member => ?_⟩
  rw [move.errors]
  cases List.mem_append.mp member with
  | inl before => exact same state before
  | inr after => exact same' state after

end PublishesErrors

namespace Config

variable (c : Config)

private theorem acceptOrder_publishesErrors (trajectory : TrajectoryHandler) (order : Order)
    (mode : AcceptMode) : PublishesErrors c (c.acceptOrder trajectory order mode) := by
  have begun : PublishesErrors c (c.beginOrder trajectory order mode) :=
    (PublishesErrors.updateState _ _ true).after_same rfl
  unfold acceptOrder
  cases mode with
  | new | update =>
      dsimp only
      split
      · exact begun.move (.crash _)
      · exact begun.move (processNode_move _ _ _)
  | stitch =>
      dsimp only
      split
      · exact .of_same rfl
      · split
        · exact .of_same rfl
        · next currentOrder _ _ baseEnd _ =>
          have stitched : PublishesErrors c (c.stitchOrder trajectory currentOrder baseEnd order) :=
            (PublishesErrors.updateState _ _ true).after_same rfl
          split
          · exact stitched.move (processEdge_move _ _)
          · exact stitched

private theorem rejectOrder_publishesErrors (error : Error) :
    PublishesErrors c (c.rejectOrder error) :=
  (PublishesErrors.updateState _ _ true).after_same rfl

theorem processOrder_publishesErrors (order : Order) (adapter : AdapterAnswers) :
    PublishesErrors c (c.processOrder order adapter) := by
  unfold processOrder
  dsimp only
  split
  · exact (rejectOrder_publishesErrors _ _).after_same rfl
  · exact (PublishesErrors.updateState _ _ true).after_same rfl
  · exact (acceptOrder_publishesErrors _ _ _ _).after_same rfl

/-- Unless it crashes, the vehicle rejects an order that violates the schema. -/
theorem processInvalidOrder_log (payload : Json) (message : String) :
    (∃ error, (c.processInvalidOrder payload message).log = c.log ++ [.orderRejected error]) ∨
      c.processInvalidOrder payload message = c.throwTypeError := by
  unfold processInvalidOrder
  split
  · exact .inr rfl
  · next error _ => exact .inl ⟨error, by simp [rejectOrder, addError, observe]⟩

theorem processOrder_log_of_reject {order : Order} {adapter : AdapterAnswers} {error : Error}
    (decided : c.agv.decideOrder adapter (allocateNodes c.received order) = .reject error) :
    (c.processOrder order adapter).log = c.log ++ [.orderRejected error] := by
  simp [processOrder, decided, rejectOrder, addError, observe]

end Config

/-- The vehicle begins the order, or no error that it keeps rejects the order. -/
def KeepsNoRejection (agv : AgvController) (order : Order) : OrderDecision → Prop
  | .discard =>
      ∀ error ∈ agv.currentState.errors, isRejectionOf order error.error = false
  | .accept .stitch =>
      ∀ error ∈ agv.currentState.errors, error.error.refersToAction →
        isRejectionOf order error.error = false
  | .reject _ | .accept .new | .accept .update => True

instance (agv : AgvController) (order : Order) (decision : OrderDecision) :
    Decidable (KeepsNoRejection agv order decision) :=
  match decision with
  | .discard => inferInstanceAs (Decidable (∀ _ ∈ _, _))
  | .accept .stitch => inferInstanceAs (Decidable (∀ _ ∈ _, _ → _))
  | .reject _ | .accept .new | .accept .update => isTrue trivial

theorem ErrorBooks.processOrder_notRejected {c : Config} (books : ErrorBooks c.agv) {order : Order}
    {adapter : AdapterAnswers}
    (keeps : KeepsNoRejection c.agv order
      (c.agv.decideOrder adapter (Config.allocateNodes c.received order)))
    (taken : ∀ error,
      c.agv.decideOrder adapter (Config.allocateNodes c.received order) ≠ .reject error) :
    ∀ error ∈ (c.processOrder order adapter).agv.currentState.errors,
      isRejectionOf order error.error = false := by
  cases decided : c.agv.decideOrder adapter (Config.allocateNodes c.received order) with
  | reject error => exact absurd decided (taken error)
  | discard =>
      rw [decided] at keeps
      have notRejected : ∀ error ∈ c.agv.currentState.errors,
          isRejectionOf order error.error = false := keeps
      simpa [Config.processOrder, decided, Config.observe, State.merge] using notRejected
  | accept mode =>
      rw [decided] at keeps
      rw [processOrder_errors decided]
      intro error member
      obtain ⟨present, counted | ⟨stitched, refers⟩⟩ := mem_getNonOrderRejectionErrors.mp member
      · exact books.not_isRejectionOf present counted order
      · obtain rfl : mode = .stitch := by simpa using stitched
        exact keeps error present refers

/-! ## A corrected order -/

def liftAction : Action where
  actionId := "lift"
  actionType := "lift"
  blockingType := .hard

/-- The adapter does not execute the action `lift`. -/
def cannotLift : AdapterAnswers where
  isActionExecutable context :=
    if context.action.actionId = "lift" then [textReference "actionParameters" "height"] else []

/-- An order that extends an order of `driveOrder` by an edge. -/
def extendOrder (orderUpdateId : Nat) (goalActions : List Action) : Order where
  orderId := "order"
  orderUpdateId := orderUpdateId
  nodes :=
    [{ nodeId := "end", sequenceId := 2, released := true, actions := [] },
      { nodeId := "goal", sequenceId := 4, released := true, actions := goalActions }]
  edges :=
    [{ edgeId := "extension"
       sequenceId := 3
       released := true
       startNodeId := "end"
       endNodeId := "goal"
       actions := [] }]

theorem accepted_notRejected_of_correctedOrder :
    ∃ c next,
      Library.Run Config.step (fun _ _ => True) (Config.initial 5)
        [.order (driveOrder "order" [] [] [liftAction]) cannotLift] c ∧
      c.step (.order (driveOrder "order" [] [] []) {}) = some next ∧
      c.agv.currentState.errors.any
        (fun error => isRejectionOf (driveOrder "order" [] [] []) error.error) ∧
      ∀ error ∈ next.agv.currentState.errors,
        isRejectionOf (driveOrder "order" [] [] []) error.error = false := by
  obtain ⟨c, run, passed⟩ := ControllerRun.exists_of_execute (fun _ _ => True) 5
    [.order (driveOrder "order" [] [] [liftAction]) cannotLift]
    (fun c => c.enabled (.order (driveOrder "order" [] [] []) {}) &&
      decide (c.agv.decideOrder {} (Config.allocateNodes c.received (driveOrder "order" [] [] [])) =
        .accept .new) && c.agv.currentState.errors.any
          fun error => isRejectionOf (driveOrder "order" [] [] []) error.error) (by decide)
  simp only [Bool.and_eq_true, decide_eq_true_eq] at passed
  obtain ⟨⟨enabled, accepted⟩, rejected⟩ := passed
  have run := run.weaken (fun _ _ _ => trivial)
  have stepped := Config.step_eq_some.mpr ⟨enabled, rfl⟩
  exact ⟨c, _, run, stepped, rejected, (accepted_notRejected_iff run accepted stepped).mpr nofun⟩

/-- A stitching order rejected for an action and assigned again after
correction is accepted, and still announced as rejected. -/
theorem accepted_rejected_of_correctedStitching :
    ∃ c next,
      ControllerRun (fun _ _ => True) 5
        [.order (driveOrder "order" [] [] []) {}, .proceed,
          .order (extendOrder 1 [liftAction]) cannotLift] c ∧
      c.agv.decideOrder {} (Config.allocateNodes c.received (extendOrder 1 [])) =
        .accept .stitch ∧
      c.step (.order (extendOrder 1 []) {}) = some next ∧
      ∃ error ∈ next.agv.currentState.errors, isRejectionOf (extendOrder 1 []) error.error := by
  obtain ⟨c, run, passed⟩ := ControllerRun.exists_of_execute (fun _ _ => True) 5
    [.order (driveOrder "order" [] [] []) {}, .proceed,
      .order (extendOrder 1 [liftAction]) cannotLift]
    (fun c => c.enabled (.order (extendOrder 1 []) {}) &&
      decide (c.agv.decideOrder {} (Config.allocateNodes c.received (extendOrder 1 [])) =
        .accept .stitch) && (c.perform (.order (extendOrder 1 []) {})).agv.currentState.errors.any
          fun error => isRejectionOf (extendOrder 1 []) error.error) (by decide)
  simp only [Bool.and_eq_true, decide_eq_true_eq] at passed
  obtain ⟨⟨enabled, accepted⟩, rejected⟩ := passed
  obtain ⟨error, member, rejects⟩ := List.any_eq_true.mp rejected
  exact ⟨c, _, run, accepted, Config.step_eq_some.mpr ⟨enabled, rfl⟩, error, member, rejects⟩

/-! ## Errors that do not concern orders -/

/-- The error has been reported for a failed action of a node or edge. -/
def IsOrderActionError (log : List Observation) (error : Error) : Prop :=
  ∃ context change, context.scope ≠ .instant ∧ .actionStatus context .failed ∈ log ∧
    Config.actionError context change = some error

/-- The error is neither the rejection of an order nor an action error of an
order before the accepted one. The actions of a stitched order go on. -/
structure IsForeignError (log : List Observation) (mode : AcceptMode) (error : Error) : Prop where
  notRejection : .orderRejected error ∉ log
  notOrderAction : mode ≠ .stitch → ¬ IsOrderActionError log error

/-- Foreign errors survive the acceptance of an order if and only if they are
counted as errors of instant actions, or refer to an action when the order is
stitched. -/
theorem keeps_foreignErrors_iff {c next : Config} {order : Order} {adapter : AdapterAnswers}
    {mode : AcceptMode}
    (accepted : c.agv.decideOrder adapter (Config.allocateNodes c.received order) = .accept mode)
    (stepped : c.step (.order order adapter) = some next) :
    (∀ error ∈ c.agv.currentState.errors, IsForeignError c.log mode error.error →
        error ∈ next.agv.currentState.errors) ↔
      ∀ error ∈ c.agv.currentState.errors, IsForeignError c.log mode error.error →
        error.ref ∈ c.agv.erroredPublishCountKeys ∨
          mode = .stitch ∧ error.error.refersToAction := by
  obtain ⟨-, rfl⟩ := Config.step_eq_some.mp stepped
  simp only [Config.perform, processOrder_errors accepted, mem_getNonOrderRejectionErrors,
    decide_eq_true_eq]
  constructor
  · intro kept error member foreign
    exact (kept error member foreign).2
  · intro covered error member foreign
    exact ⟨member, covered error member foreign⟩

/-- The error reported by the adapter when it stops driving with low battery. -/
def batteryLow : Error where
  errorType := "batteryLowError"
  errorLevel := .fatal
  errorDescription := some "stop driving due to low battery"
  errorReferences := some [textReference "batteryState.batteryCharge" "9"]

/-- The error on a rejected instant action is kept. -/
theorem keeps_foreignErrors_of_rejectedInstantAction :
    ∃ c next,
      Library.Run Config.step (fun _ _ => True) (Config.initial 5)
        [.instantActions { actions := [liftAction] } cannotLift, .proceed] c ∧
      c.step (.order (driveOrder "order" [] [] []) {}) = some next ∧
      ∃ error ∈ c.agv.currentState.errors, IsForeignError c.log .new error.error ∧
        error ∈ next.agv.currentState.errors := by
  have passed : (Library.execute Config.step (fun _ _ => True) (Config.initial 5)
      [.instantActions { actions := [liftAction] } cannotLift, .proceed]).any
        (fun c => decide (c.enabled (.order (driveOrder "order" [] [] []) {}) ∧
          c.agv.decideOrder {} (Config.allocateNodes c.received (driveOrder "order" [] [] [])) =
            .accept .new ∧ c.log = [.instantActionRejected liftAction] ∧
          (∃ error ∈ c.agv.currentState.errors, True) ∧
          ∀ error ∈ c.agv.currentState.errors, error.ref ∈ c.agv.erroredPublishCountKeys)) =
            true := by
    decide
  obtain ⟨c, run, passed⟩ := Library.exists_run_of_execute passed
  obtain ⟨enabled, accepted, log, ⟨error, member, -⟩, counted⟩ := of_decide_eq_true passed
  have stepped := Config.step_eq_some.mpr ⟨enabled, rfl⟩
  have kept := (keeps_foreignErrors_iff accepted stepped).mpr fun error member _ =>
    .inl (counted error member)
  have foreign : IsForeignError c.log .new error.error := by
    rw [log]
    constructor
    · simp
    · rintro - ⟨_, _, -, reported, -⟩
      simp at reported
  exact ⟨c, _, run, stepped, error, member, foreign, kept error member foreign⟩

/-- The error reported by the adapter is lost when an order is accepted. -/
theorem not_keeps_batteryLow :
    ∃ c next,
      Library.Run Config.step (fun _ _ => True) (Config.initial 5)
        [.updateErrors batteryLow .add true] c ∧
      c.step (.order (driveOrder "order" [] [] []) {}) = some next ∧
      (∃ error ∈ c.agv.currentState.errors, error.error = batteryLow ∧
        IsForeignError c.log .new error.error) ∧
      next.agv.currentState.errors = [] := by
  have passed : (Library.execute Config.step (fun _ _ => True) (Config.initial 5)
      [.updateErrors batteryLow .add true]).any
        (fun c => decide (c.enabled (.order (driveOrder "order" [] [] []) {}) ∧ c.log = [] ∧
          (∃ error ∈ c.agv.currentState.errors, error.error = batteryLow) ∧
          (c.perform (.order (driveOrder "order" [] [] []) {})).agv.currentState.errors = [])) =
            true := by
    decide
  obtain ⟨c, run, passed⟩ := Library.exists_run_of_execute passed
  obtain ⟨enabled, log, ⟨error, member, same⟩, lost⟩ := of_decide_eq_true passed
  refine ⟨c, _, run, Config.step_eq_some.mpr ⟨enabled, rfl⟩, ⟨error, member, same, ?_⟩, lost⟩
  rw [log]
  constructor
  · simp
  · rintro - ⟨_, _, -, reported, -⟩
    simp at reported

end Vda5050
