import Vda5050.AgvController.Position
import Vda5050.AgvController.Upkeep

/-!
# Accepted and rejected orders

A rejected order leaves everything but the errors as it is. Orders of the same
orderId are accepted with increasing orderUpdateIds, which are those reported.
-/

set_option autoImplicit false

namespace Vda5050

open AgvController

/-- The orders accepted so far. -/
def acceptedOrders (log : List Observation) : List Order :=
  log.filterMap fun
    | .orderAccepted _ order => some order
    | _ => none

@[simp] theorem acceptedOrders_append (log observations : List Observation) :
    acceptedOrders (log ++ observations) = acceptedOrders log ++ acceptedOrders observations :=
  List.filterMap_append

/-- The later one of two orders of the same orderId accepted without another
orderId in between has the greater orderUpdateId. -/
def IncreasingUpdates (log : List Observation) : Prop :=
  ∀ before first between second after,
    acceptedOrders log = before ++ first :: (between ++ second :: after) →
    first.orderId = second.orderId → (∀ order ∈ between, order.orderId = first.orderId) →
    first.orderUpdateId < second.orderUpdateId

/-- The supplied vehicle state does not overwrite the ids of the order. -/
def Event.KeepsOrderIds (event : Event) : Prop :=
  event.suppliedState.orderId = none ∧ event.suppliedState.orderUpdateId = none

instance (event : Event) : Decidable event.KeepsOrderIds :=
  inferInstanceAs (Decidable (_ ∧ _))

/-- The error refers to the order by its ids. -/
def Error.RefersTo (error : Error) (order : Order) : Prop :=
  textReference "orderId" order.orderId ∈ error.errorReferences.getD [] ∧
    textReference "orderUpdateId" (toString order.orderUpdateId) ∈ error.errorReferences.getD []

/-- The order leaves nothing behind but an error that refers to it. -/
structure Config.Rejects (c next : Config) (order : Order) : Prop where
  currentOrder : next.agv.currentOrder = c.agv.currentOrder
  error : ∃ ref error, error.RefersTo order ∧
    next.agv.currentState =
      { c.agv.currentState with
        errors := c.agv.currentState.errors ++ [{ ref := ref, error := error }] } ∧
    next.log = c.log ++ [.orderRejected error]
  stack : next.stack = c.stack

/-! ## Rejection -/

private theorem createOrderError_refersTo (order : Order) (errorType errorDescription : String)
    (errorRefs : List ErrorReference) :
    (createOrderError order errorType errorDescription errorRefs).RefersTo order := by
  constructor
  · simp [createOrderError, orderError, textReference]
  · simp [createOrderError, orderError, textReference]

/-- The types of the errors by which orders are rejected. -/
def orderErrorTypes : List String :=
  [ErrorType.order, ErrorType.orderUpdate, ErrorType.orderNoRoute, ErrorType.orderValidation]

/-- The error is created for the order. -/
def Error.IsOrderError (error : Error) (order : Order) : Prop :=
  ∃ errorType errorDescription errorRefs, errorType ∈ orderErrorTypes ∧
    error = createOrderError order errorType errorDescription errorRefs

private theorem Error.IsOrderError.refersTo {error : Error} {order : Order}
    (created : error.IsOrderError order) : error.RefersTo order := by
  obtain ⟨errorType, errorDescription, errorRefs, -, rfl⟩ := created
  exact createOrderError_refersTo order errorType errorDescription errorRefs

private theorem decideStitching_reject {agv : AgvController} {order : Order} {error : Error}
    (rejected : agv.decideStitching order = .reject error) : error.IsOrderError order := by
  unfold decideStitching at rejected
  split at rejected
  · cases rejected
  · cases rejected
    exact ⟨_, _, _, by decide, rfl⟩

private theorem decideMode_reject {agv : AgvController} {adapter : AdapterAnswers} {order : Order}
    {error : Error} (rejected : agv.decideMode adapter order = .reject error) :
    error.IsOrderError order := by
  unfold decideMode at rejected
  split at rejected
  · split at rejected
    · cases rejected
      exact ⟨_, _, _, by decide, rfl⟩
    · split at rejected
      · cases rejected
      · split at rejected
        · exact decideStitching_reject rejected
        · split at rejected
          · cases rejected
          · cases rejected
            exact ⟨_, _, _, by decide, rfl⟩
  · split at rejected
    · exact decideStitching_reject rejected
    · split at rejected
      · next found =>
        cases rejected
        obtain ⟨node, -, found⟩ := Option.bind_eq_some_iff.mp found
        dsimp only at found
        split at found
        · cases found
        · cases found
          exact ⟨_, _, _, by decide, rfl⟩
      · cases rejected

private theorem checkRouteTraversable_isOrderError {adapter : AdapterAnswers} {order : Order}
    {error : Error}
    (found : checkRouteTraversable adapter order = some error) : error.IsOrderError order := by
  unfold checkRouteTraversable at found
  dsimp only at found
  split at found
  · cases found
  · cases found
    exact ⟨_, _, _, by decide, rfl⟩

private theorem checkOrderActionsExecutable_isOrderError {adapter : AdapterAnswers} {order : Order}
    {error : Error} (found : checkOrderActionsExecutable adapter order = some error) :
    error.IsOrderError order := by
  obtain ⟨context, -, found⟩ := List.exists_of_findSome?_eq_some found
  dsimp only at found
  split at found
  · cases found
  · cases found
    exact ⟨_, _, _, by decide, rfl⟩

private theorem checkVehicleState_isOrderError {state : State} {order : Order} {error : Error}
    (found : checkVehicleState state order = some error) : error.IsOrderError order := by
  unfold checkVehicleState at found
  repeat' split at found
  all_goals
    cases found
    try exact ⟨_, _, _, by decide, rfl⟩

/-- Whatever check fails, the error is one of the order. -/
theorem decideOrder_reject {agv : AgvController} {adapter : AdapterAnswers} {order : Order}
    {error : Error} (rejected : agv.decideOrder adapter order = .reject error) :
    error.IsOrderError order := by
  unfold decideOrder at rejected
  split at rejected
  · cases rejected
    exact ⟨_, _, _, by decide, rfl⟩
  · split at rejected
    · cases rejected
      exact ⟨_, _, _, by decide, rfl⟩
    · split at rejected
      · next found =>
        cases rejected
        cases route : checkRouteTraversable adapter order with
        | some other =>
            rw [route] at found
            cases found
            exact checkRouteTraversable_isOrderError route
        | none =>
            cases action : checkOrderActionsExecutable adapter order with
            | some other =>
                rw [route, action] at found
                cases found
                exact checkOrderActionsExecutable_isOrderError action
            | none =>
                rw [route, action] at found
                exact checkVehicleState_isOrderError found
      · exact decideMode_reject rejected

private theorem Config.rejectOrder_rejects (c : Config) {order : Order} {error : Error}
    (refers : error.RefersTo order) : c.Rejects (c.rejectOrder error) order := by
  constructor
  · simp [rejectOrder, observe, addError]
  · refine ⟨c.agv.nextErrorRef, error, refers, ?_, ?_⟩
    · simp [rejectOrder, observe, addError, State.merge]
    · simp [rejectOrder, observe, addError]
  · simp [rejectOrder, observe, addError]

/-- A processed order is accepted, discarded or rejected. -/
private theorem Config.processOrder_outcome (c : Config) (order : Order)
    (adapter : AdapterAnswers) :
    (∃ mode observations, (c.processOrder order adapter).log =
        c.log ++ .orderAccepted mode (allocateNodes c.received order) :: observations) ∨
      (c.processOrder order adapter).log = c.log ++ [.orderDiscarded] ∨
      c.Rejects (c.processOrder order adapter) order := by
  cases decided : c.agv.decideOrder adapter (allocateNodes c.received order) with
  | accept mode =>
      left
      obtain ⟨observations, log, -⟩ := processOrder_accept_quiet c decided
      refine ⟨mode, observations, ?_⟩
      rw [log]
      simp [observe]
  | discard =>
      right; left
      simp [processOrder, decided, observe]
  | reject error =>
      right; right
      have refers : error.RefersTo (allocateNodes c.received order) :=
        (decideOrder_reject decided).refersTo
      have refers : error.RefersTo order := refers
      have rejects := rejectOrder_rejects { c with received := c.received + 1 } refers
      have processed : c.processOrder order adapter =
          { c with received := c.received + 1 }.rejectOrder error := by
        simp only [processOrder, decided]
      rw [processed]
      exact ⟨rejects.currentOrder, rejects.error, rejects.stack⟩

/-! ## Accepted orders -/

namespace Config

variable (c : Config)

/-- The order accepted by an event. -/
def acceptedOrder : Event → Option Order
  | .order order adapter =>
      match c.agv.decideOrder adapter (allocateNodes c.received order) with
      | .accept _ => some (allocateNodes c.received order)
      | .reject _ | .discard => none
  | _ => none

theorem acceptedOrder_eq_some {event : Event} {accepted : Order}
    (found : c.acceptedOrder event = some accepted) :
    ∃ order adapter mode, event = .order order adapter ∧
      allocateNodes c.received order = accepted ∧
      c.agv.decideOrder adapter accepted = .accept mode := by
  cases event with
  | order order adapter =>
      cases decided : c.agv.decideOrder adapter (allocateNodes c.received order) with
      | accept mode =>
          simp only [acceptedOrder, decided] at found
          obtain rfl := Option.some.inj found
          exact ⟨order, adapter, mode, rfl, rfl, decided⟩
      | reject error => simp [acceptedOrder, decided] at found
      | discard => simp [acceptedOrder, decided] at found
  | _ => cases found

private theorem Quiet.acceptedOrders {next : Config} (quiet : c.Quiet next) :
    acceptedOrders next.log = acceptedOrders c.log := by
  obtain ⟨observations, log, quiet⟩ := quiet
  have none : Vda5050.acceptedOrders observations = [] := by
    refine List.filterMap_eq_nil_iff.mpr fun observation member => ?_
    have quiet := quiet observation member
    cases observation with
    | orderAccepted => simp [Observation.isAcceptance] at quiet
    | _ => rfl
  simp [log, none]

private theorem perform_acceptedOrders (event : Event) :
    acceptedOrders (c.perform event).log =
      acceptedOrders c.log ++ (c.acceptedOrder event).toList := by
  cases event with
  | order order adapter =>
      cases decided : c.agv.decideOrder adapter (allocateNodes c.received order) with
      | accept mode =>
          have quiet := processOrder_accept_quiet c decided
          simp only [perform, acceptedOrder, decided]
          rw [quiet.acceptedOrders]
          simp [observe, acceptedOrders]
      | reject error =>
          have quiet : c.Quiet (c.processOrder order adapter) :=
            processOrder_quiet c (by simp [decided])
          simp [perform, acceptedOrder, decided, quiet.acceptedOrders]
      | discard =>
          have quiet : c.Quiet (c.processOrder order adapter) :=
            processOrder_quiet c (by simp [decided])
          simp [perform, acceptedOrder, decided, quiet.acceptedOrders]
  | instantActions message adapter =>
      obtain ⟨_, _, _, _, observations, same, -, -, -, kinds⟩ :=
        acceptInstantActions_eq c adapter message.actions
      have none : acceptedOrders observations = [] := by
        refine List.filterMap_eq_nil_iff.mpr fun observation member => ?_
        rcases kinds observation member with ⟨action, rfl⟩ | ⟨action, rfl⟩ <;> rfl
      rcases processInstantActions_log c message adapter with crashed | log
      · simp [perform, acceptedOrder, crashed, throwTypeError]
      · simp [perform, acceptedOrder, log, same, none]
  | _ =>
      rw [(perform_quiet c rfl).acceptedOrders]
      simp [acceptedOrder]

end Config

/-! ## The ids of the current order -/

namespace Position

/-- The same order is active, and reported. -/
structure SameOrder (position next : Position) : Prop where
  currentOrder : next.currentOrder = position.currentOrder
  orderId : next.orderId = position.orderId
  orderUpdateId : next.orderUpdateId = position.orderUpdateId

theorem SameOrder.refl (position : Position) : position.SameOrder position := ⟨rfl, rfl, rfl⟩

private theorem traverse_sameOrder (position : Position) (node : Node)
    (traversedEdge : Option Edge) :
    position.SameOrder (position.traverse node traversedEdge) := ⟨rfl, rfl, rfl⟩

theorem arrive_sameOrder (position : Position) (node : Node) (traversedEdge : Option Edge) :
    position.SameOrder (position.arrive node traversedEdge) := by
  unfold arrive
  split
  · exact .refl position
  · split
    · exact ⟨rfl, rfl, rfl⟩
    · cases traversedEdge with
      | none => exact traverse_sameOrder position node none
      | some edge => exact .refl position

private theorem resume_sameOrder (position : Position) (canceling : Bool) :
    position.SameOrder (position.resume canceling) := by
  unfold resume
  cases position.currentPausedNode with
  | none => exact .refl position
  | some pausedNode =>
      dsimp only
      split
      · exact ⟨rfl, rfl, rfl⟩
      · obtain ⟨currentOrder, orderId, orderUpdateId⟩ :=
          arrive_sameOrder { position with currentPausedNode := none } pausedNode none
        exact ⟨currentOrder, orderId, orderUpdateId⟩

/-- The accepted order is the active one, and reported if the one before it was. -/
private theorem accept_ids {agv : AgvController} {order : Order} {mode : AcceptMode}
    (accepts : agv.Accepts order mode) (trajectory : TrajectoryHandler) :
    ∃ currentOrder,
      (agv.position.accept trajectory order mode).currentOrder = some currentOrder ∧
      currentOrder.orderId = order.orderId ∧ currentOrder.orderUpdateId = order.orderUpdateId ∧
      (agv.position.accept trajectory order mode).orderUpdateId = order.orderUpdateId ∧
      ((∀ before, agv.currentOrder = some before → agv.currentState.orderId = before.orderId) →
        (agv.position.accept trajectory order mode).orderId = order.orderId) := by
  obtain ⟨firstNode, nodes, same, -⟩ := head_released_of_validateOrderConstraints accepts.valid
  have head : order.nodes.head? = some firstNode := by rw [same, List.head?_cons]
  cases mode with
  | new =>
      have arrived := arrive_sameOrder
        (agv.position.beginOrder trajectory order order.orderId) firstNode none
      simp only [accept, head]
      exact ⟨order, arrived.currentOrder, rfl, rfl, arrived.orderUpdateId,
        fun _ => arrived.orderId⟩
  | update =>
      have arrived := arrive_sameOrder
        (agv.position.beginOrder trajectory order agv.position.orderId) firstNode none
      obtain ⟨-, before, current, sameId, -⟩ := accepts.updates rfl
      simp only [accept, head]
      refine ⟨order, arrived.currentOrder, rfl, rfl, arrived.orderUpdateId, fun reported => ?_⟩
      exact arrived.orderId.trans ((reported before current).trans sameId)
  | stitch =>
      obtain ⟨currentOrder, baseEnd, current, found⟩ :=
        isOrderBaseStitching_spec (accepts.stitches rfl).2
      have samePosition : agv.position.currentOrder = some currentOrder := current
      simp only [accept, samePosition, found]
      exact ⟨_, rfl, rfl, rfl, rfl, fun _ => rfl⟩

end Position

namespace Config

variable (c : Config)

/-- Other events leave the current order alone. -/
private theorem nextPosition_currentOrder {event : Event}
    (notAccepted : c.acceptedOrder event = none) :
    (c.nextPosition event).currentOrder = c.position.currentOrder ∧
      (event.KeepsOrderIds → c.position.SameOrder (c.nextPosition event)) := by
  have same : ∀ next : Position, c.position.SameOrder next →
      next.currentOrder = c.position.currentOrder ∧
        (event.KeepsOrderIds → c.position.SameOrder next) :=
    fun next same => ⟨same.currentOrder, fun _ => same⟩
  cases event with
  | proceed =>
      apply same
      simp only [nextPosition, proceedPosition]
      split
      · exact Position.traverse_sameOrder _ _ _
      · exact Position.resume_sameOrder _ _
      · exact .refl _
  | order order adapter =>
      apply same
      simp only [nextPosition, orderPosition]
      cases decided : c.agv.decideOrder adapter (allocateNodes c.received order) with
      | accept mode => simp [acceptedOrder, decided] at notAccepted
      | reject error => exact .refl _
      | discard => exact .refl _
  | updateActionStatus context change =>
      refine ⟨rfl, fun keeps => ⟨rfl, ?_, ?_⟩⟩
      · simp [nextPosition, Position.supply, show change.linkedState.orderId = none from keeps.1]
      · simp [nextPosition, Position.supply,
          show change.linkedState.orderUpdateId = none from keeps.2]
  | updatePartialState newState reportImmediately =>
      refine ⟨rfl, fun keeps => ⟨rfl, ?_, ?_⟩⟩
      · simp [nextPosition, Position.supply, show newState.orderId = none from keeps.1]
      · simp [nextPosition, Position.supply, show newState.orderUpdateId = none from keeps.2]
  | edgeTraversed context =>
      apply same
      simp only [nextPosition]
      split
      · exact .refl _
      · cases context.endNode with
        | none => exact .refl _
        | some endNode => exact Position.arrive_sameOrder _ _ _
  | stopped context => exact same _ ⟨rfl, rfl, rfl⟩
  | drivingToNextNode nextNode => exact same _ ⟨rfl, rfl, rfl⟩
  | _ => exact same _ (.refl _)

end Config

/-! ## Increasing updates -/

/-- An order is accepted only if it is an update of the current one or of
another orderId. -/
private theorem decideOrder_accept_update {agv : AgvController} {adapter : AdapterAnswers}
    {order currentOrder : Order} {mode : AcceptMode}
    (accepted : agv.decideOrder adapter order = .accept mode)
    (current : agv.currentOrder = some currentOrder)
    (same : currentOrder.orderId = order.orderId) :
    currentOrder.orderUpdateId < order.orderUpdateId := by
  have decided : agv.decideMode adapter order = .accept mode := by
    unfold decideOrder at accepted
    split at accepted
    · cases accepted
    · split at accepted
      · cases accepted
      · split at accepted
        · cases accepted
        · exact accepted
  have kept : agv.currentOrder.filter (·.orderId = order.orderId) = some currentOrder := by
    rw [current, Option.filter_eq_some_iff]
    exact ⟨rfl, by simpa using same⟩
  simp only [decideMode, kept] at decided
  split at decided
  · cases decided
  · split at decided
    · cases decided
    · omega

/-- What the accepted orders tell about the current one. -/
structure UpdateBooks (c : Config) : Prop where
  last : (acceptedOrders c.log).getLast?.map (fun order => (order.orderId, order.orderUpdateId)) =
    c.agv.currentOrder.map fun order => (order.orderId, order.orderUpdateId)
  increasing : (acceptedOrders c.log).IsChain fun first second =>
    first.orderId = second.orderId → first.orderUpdateId < second.orderUpdateId

theorem UpdateBooks.initial (limit : Nat) : UpdateBooks (Config.initial limit) where
  last := rfl
  increasing := .nil

theorem UpdateBooks.perform {c : Config} (books : UpdateBooks c) (event : Event) :
    UpdateBooks (c.perform event) := by
  have log := c.perform_acceptedOrders event
  have position : (c.perform event).agv.currentOrder = (c.nextPosition event).currentOrder :=
    congrArg Position.currentOrder (c.perform_position event)
  cases accepted : c.acceptedOrder event with
  | none =>
      rw [accepted, Option.toList_none, List.append_nil] at log
      rw [(c.nextPosition_currentOrder accepted).1] at position
      constructor
      · rw [log, position]
        exact books.last
      · rw [log]
        exact books.increasing
  | some order =>
      obtain ⟨received, adapter, mode, rfl, allocated, decided⟩ :=
        c.acceptedOrder_eq_some accepted
      have next : c.nextPosition (.order received adapter) =
          c.agv.position.accept adapter.trajectory order mode := by
        simp only [Config.nextPosition, Config.orderPosition, allocated, decided]
        rfl
      obtain ⟨currentOrder, current, sameId, sameUpdateId, -, -⟩ :=
        Position.accept_ids (decideOrder_accept decided) adapter.trajectory
      rw [accepted, Option.toList_some] at log
      rw [next, current] at position
      constructor
      · rw [log, position, List.getLast?_concat]
        simp [sameId, sameUpdateId]
      · rw [log, List.isChain_append]
        refine ⟨books.increasing, .singleton _, ?_⟩
        intro previous last added first same
        obtain rfl : added = order := by simpa using first.symm
        have ids := books.last
        rw [Option.mem_def.mp last, Option.map_some, eq_comm, Option.map_eq_some_iff] at ids
        obtain ⟨before, current, ids⟩ := ids
        obtain ⟨sameId, sameUpdateId⟩ := Prod.mk.inj ids
        rw [← sameUpdateId]
        exact decideOrder_accept_update decided current (sameId.trans same)

/-- What holds of orders accepted one after the other holds across orders of
the same orderId. -/
private theorem UpdateBooks.increasingUpdates {c : Config} (books : UpdateBooks c) :
    IncreasingUpdates c.log := by
  intro before first between second after split same sameBetween
  have chain := books.increasing
  rw [split, List.isChain_append] at chain
  obtain ⟨-, chain, -⟩ := chain
  clear books split
  induction between generalizing first with
  | nil =>
      rw [List.nil_append, List.isChain_cons_cons] at chain
      exact chain.1 same
  | cons middle between ih =>
      rw [List.cons_append, List.isChain_cons_cons] at chain
      have sameMiddle := sameBetween middle List.mem_cons_self
      have less := chain.1 sameMiddle.symm
      have rest := ih middle (sameMiddle.trans same)
        (fun order member => (sameBetween order (List.mem_cons_of_mem _ member)).trans
          sameMiddle.symm) chain.2
      exact Nat.lt_trans less rest

/-- Once an order has been accepted its ids are reported. -/
private theorem reportedIds_of_run {condition : Config → Event → Prop} {limit : Nat}
    {events : List Event}
    {c : Config} (run : Library.Run Config.step condition (Config.initial limit) events c)
    (keeps : ∀ c event, condition c event → event.KeepsOrderIds) (currentOrder : Order)
    (current : c.agv.currentOrder = some currentOrder) :
    c.agv.currentState.orderId = currentOrder.orderId ∧
      c.agv.currentState.orderUpdateId = currentOrder.orderUpdateId := by
  let Reported (position : Position) : Prop := ∀ currentOrder,
    position.currentOrder = some currentOrder →
      position.orderId = currentOrder.orderId ∧ position.orderUpdateId = currentOrder.orderUpdateId
  have reported : Reported c.position := by
    refine run.invariant (fun c => Reported c.position) ?_ ?_
    · intro currentOrder none
      cases none
    · intro events c event next _ reported permitted stepped
      obtain ⟨-, rfl⟩ := Config.step_eq_some.mp stepped
      rw [c.perform_position]
      cases accepted : c.acceptedOrder event with
      | none =>
          have same := (c.nextPosition_currentOrder accepted).2 (keeps c event permitted)
          intro currentOrder found
          rw [same.orderId, same.orderUpdateId]
          exact reported currentOrder (same.currentOrder ▸ found)
      | some order =>
          obtain ⟨received, adapter, mode, rfl, allocated, decided⟩ :=
            c.acceptedOrder_eq_some accepted
          obtain ⟨_, active, sameId, sameUpdateId, orderUpdateId, orderId⟩ :=
            Position.accept_ids (decideOrder_accept decided) adapter.trajectory
          simp only [Config.nextPosition, Config.orderPosition, allocated, decided]
          intro currentOrder found
          obtain rfl := Option.some.inj (active.symm.trans found)
          rw [sameId, sameUpdateId]
          exact ⟨orderId fun before current => (reported before current).1, orderUpdateId⟩
  exact reported currentOrder current

/-- In every state reached, an order is accepted, discarded or rejected
without a trace but an error, the accepted orders are increasing updates, and
the ids of the last one are reported. -/
theorem processOrder_of_run {condition : Config → Event → Prop} {limit : Nat} {events : List Event}
    {c : Config} (run : Library.Run Config.step condition (Config.initial limit) events c) :
    (∀ order adapter next, c.step (.order order adapter) = some next →
      (∃ mode observations, next.log =
          c.log ++ .orderAccepted mode (Config.allocateNodes c.received order) :: observations) ∨
        next.log = c.log ++ [.orderDiscarded] ∨ c.Rejects next order) ∧
    IncreasingUpdates c.log ∧
    ((∀ c event, condition c event → event.KeepsOrderIds) → ∀ currentOrder,
      c.agv.currentOrder = some currentOrder →
      c.agv.currentState.orderId = currentOrder.orderId ∧
        c.agv.currentState.orderUpdateId = currentOrder.orderUpdateId) := by
  refine ⟨?_, ?_, reportedIds_of_run run⟩
  · intro order adapter next stepped
    obtain ⟨-, rfl⟩ := Config.step_eq_some.mp stepped
    exact c.processOrder_outcome order adapter
  · have books : UpdateBooks c := by
      refine run.invariant UpdateBooks (.initial limit) ?_
      intro events c event next _ books _ stepped
      obtain ⟨-, rfl⟩ := Config.step_eq_some.mp stepped
      exact books.perform event
    exact books.increasingUpdates

/-- Another order is rejected while the vehicle executes the first one. -/
theorem processOrder_of_run_of_openOrder :
    ∃ c next,
      Library.Run Config.step (fun _ event => event.KeepsOrderIds) (Config.initial 5)
        [.order openOrder {}, .proceed] c ∧
      c.step (.order (driveOrder "other" [] [] []) {}) = some next ∧
      ((∃ mode observations, next.log = c.log ++ .orderAccepted mode
            (Config.allocateNodes c.received (driveOrder "other" [] [] [])) :: observations) ∨
        next.log = c.log ++ [.orderDiscarded] ∨
        c.Rejects next (driveOrder "other" [] [] [])) ∧
      IncreasingUpdates c.log ∧ c.agv.currentOrder.isSome ∧
      ∀ currentOrder, c.agv.currentOrder = some currentOrder →
        c.agv.currentState.orderId = currentOrder.orderId ∧
          c.agv.currentState.orderUpdateId = currentOrder.orderUpdateId := by
  have passed : (Library.execute Config.step (fun _ event => event.KeepsOrderIds)
      (Config.initial 5) [.order openOrder {}, .proceed]).any
        (fun c => c.enabled (.order (driveOrder "other" [] [] []) {}) &&
          c.agv.currentOrder.isSome) = true := by decide
  obtain ⟨c, run, passed⟩ := Library.exists_run_of_execute passed
  obtain ⟨enabled, active⟩ := (Bool.and_eq_true _ _).mp passed
  have stepped := Config.step_eq_some.mpr ⟨enabled, rfl⟩
  obtain ⟨outcome, increasing, reported⟩ := processOrder_of_run run
  exact ⟨c, _, run, stepped, outcome _ _ _ stepped, increasing, active,
    reported fun _ _ keeps => keeps⟩

/-! ## Orders delivered again -/

/-- Neither the adapter nor the state of the vehicle prohibits the order. -/
structure AgvController.Executable (agv : AgvController) (adapter : AdapterAnswers) (order : Order) :
    Prop where
  route : adapter.isRouteTraversable order.nodes order.edges = []
  actions : ∀ context ∈ orderActionContexts order, adapter.isActionExecutable context = []
  notCharging : agv.currentState.batteryState.charging = false
  noEStop : agv.currentState.safetyState.eStop = .none
  noFieldViolation : agv.currentState.safetyState.fieldViolation = false
  operatingMode : agv.currentState.operatingMode = .automatic ∨
    agv.currentState.operatingMode = .semiautomatic

/-- Nothing is left behind by the order but a publication. -/
structure Config.Discards (c next : Config) : Prop where
  agv : next.agv = c.agv
  log : next.log = c.log ++ [.orderDiscarded]

private theorem checkVehicleState_eq_none_iff {state : State} {order : Order} :
    checkVehicleState state order = none ↔
      state.batteryState.charging = false ∧ state.safetyState.eStop = .none ∧
        state.safetyState.fieldViolation = false ∧
        (state.operatingMode = .automatic ∨ state.operatingMode = .semiautomatic) := by
  unfold checkVehicleState
  cases state.batteryState.charging with
  | true => simp
  | false =>
      by_cases stopped : state.safetyState.eStop = .none
      · cases state.safetyState.fieldViolation with
        | true => simp [stopped]
        | false =>
            cases state.operatingMode <;> simp [stopped]
      · simp [stopped]

private theorem executable_iff {agv : AgvController} {adapter : AdapterAnswers} {order : Order} :
    agv.Executable adapter order ↔
      checkRouteTraversable adapter order = none ∧
        checkOrderActionsExecutable adapter order = none ∧
        checkVehicleState agv.currentState order = none := by
  have route : checkRouteTraversable adapter order = none ↔
      adapter.isRouteTraversable order.nodes order.edges = [] := by
    simp [checkRouteTraversable]
  have actions : checkOrderActionsExecutable adapter order = none ↔
      ∀ context ∈ orderActionContexts order, adapter.isActionExecutable context = [] := by
    simp [checkOrderActionsExecutable]
  rw [route, actions, checkVehicleState_eq_none_iff]
  constructor
  · rintro ⟨route, actions, charging, stopped, violation, mode⟩
    exact ⟨route, actions, charging, stopped, violation, mode⟩
  · rintro ⟨route, actions, charging, stopped, violation, mode⟩
    exact ⟨route, actions, charging, stopped, violation, mode⟩

/-- An order that has already been assigned is discarded if it could be
executed, and rejected otherwise. -/
private theorem decideOrder_of_assigned {agv : AgvController} {adapter : AdapterAnswers}
    {order currentOrder : Order} (current : agv.currentOrder = some currentOrder)
    (sameId : order.orderId = currentOrder.orderId)
    (sameUpdateId : order.orderUpdateId = currentOrder.orderUpdateId)
    (notCanceling : agv.hasCancelingOrder = false)
    (valid : validateOrderConstraints order = .ok ()) :
    agv.Executable adapter order ∧ agv.decideOrder adapter order = .discard ∨
      ¬ agv.Executable adapter order ∧ ∃ error, agv.decideOrder adapter order = .reject error := by
  have assigned : agv.currentOrder.filter (·.orderId = order.orderId) = some currentOrder := by
    rw [current, Option.filter_eq_some_iff]
    exact ⟨rfl, by simpa using sameId.symm⟩
  have discarded : agv.decideMode adapter order = .discard := by
    simp [decideMode, assigned, sameUpdateId]
  rw [executable_iff]
  simp only [decideOrder, valid, notCanceling, Bool.false_eq_true, if_false]
  cases route : checkRouteTraversable adapter order with
  | some error => exact .inr ⟨by simp, error, rfl⟩
  | none =>
      cases action : checkOrderActionsExecutable adapter order with
      | some error => exact .inr ⟨by simp, error, rfl⟩
      | none =>
          cases vehicle : checkVehicleState agv.currentState order with
          | some error => exact .inr ⟨by simp, error, rfl⟩
          | none => exact .inl ⟨⟨rfl, rfl, rfl⟩, discarded⟩

/-- The assigned order is discarded when it is delivered again if and only if
it could be executed by the vehicle in its current state. -/
theorem discards_iff_executable {c next : Config} {order currentOrder : Order}
    {adapter : AdapterAnswers} (current : c.agv.currentOrder = some currentOrder)
    (sameId : order.orderId = currentOrder.orderId)
    (sameUpdateId : order.orderUpdateId = currentOrder.orderUpdateId)
    (notCanceling : c.agv.hasCancelingOrder = false)
    (valid : validateOrderConstraints (Config.allocateNodes c.received order) = .ok ())
    (stepped : c.step (.order order adapter) = some next) :
    c.Discards next ↔ c.agv.Executable adapter (Config.allocateNodes c.received order) := by
  obtain ⟨-, rfl⟩ := Config.step_eq_some.mp stepped
  have decision (adapter : AdapterAnswers) :=
    @decideOrder_of_assigned c.agv adapter (Config.allocateNodes c.received order) currentOrder
      current sameId sameUpdateId notCanceling valid
  rcases decision adapter with ⟨executable, decided⟩ | ⟨prohibited, error, decided⟩
  · refine iff_of_true ⟨?_, ?_⟩ executable
    · simp [Config.perform, Config.processOrder, decided, Config.observe, State.merge]
    · simp [Config.perform, Config.processOrder, decided, Config.observe]
  · refine iff_of_false ?_ prohibited
    intro discards
    have log := discards.log
    simp [Config.perform, Config.processOrder, decided, Config.rejectOrder, Config.observe,
      Config.addError] at log

/-- The vehicle that executes the order starts charging. -/
def charging : Event :=
  .updatePartialState { batteryState := some { batteryCharge := 1, charging := true } } true

/-- The order is discarded as long as the vehicle executes it. -/
theorem discards_of_openOrder :
    ∃ c next,
      Library.Run Config.step (fun _ event => event.KeepsOrderIds) (Config.initial 5)
        [.order openOrder {}, .proceed] c ∧
      c.step (.order openOrder {}) = some next ∧ c.Discards next := by
  have passed : (Library.execute Config.step (fun _ event => event.KeepsOrderIds)
      (Config.initial 5) [.order openOrder {}, .proceed]).any
        (fun c => decide (c.enabled (.order openOrder {}) ∧
          c.agv.currentOrder = some (Config.allocateNodes 0 openOrder) ∧
          c.agv.hasCancelingOrder = false ∧
          validateOrderConstraints (Config.allocateNodes c.received openOrder) = .ok () ∧
          c.agv.currentState.batteryState.charging = false ∧
          c.agv.currentState.safetyState = { eStop := .none, fieldViolation := false } ∧
          c.agv.currentState.operatingMode = .automatic)) = true := by decide
  obtain ⟨c, run, passed⟩ := Library.exists_run_of_execute passed
  obtain ⟨enabled, current, notCanceling, valid, notCharging, safety, mode⟩ :=
    of_decide_eq_true passed
  have stepped := Config.step_eq_some.mpr ⟨enabled, rfl⟩
  refine ⟨c, _, run, stepped, ?_⟩
  rw [discards_iff_executable current rfl rfl notCanceling valid stepped]
  exact ⟨rfl, fun _ _ => rfl, notCharging, by rw [safety], by rw [safety], .inl mode⟩

/-- The order delivered again is rejected while the vehicle is charging. -/
theorem not_discards_of_charging :
    ∃ c next,
      Library.Run Config.step (fun _ event => event.KeepsOrderIds) (Config.initial 5)
        [.order openOrder {}, .proceed, charging] c ∧
      c.agv.currentOrder = some (Config.allocateNodes 0 openOrder) ∧
      c.agv.hasCancelingOrder = false ∧
      c.step (.order openOrder {}) = some next ∧
      next.agv.currentState.errors.length = c.agv.currentState.errors.length + 1 ∧
      ¬ c.Discards next := by
  have passed : (Library.execute Config.step (fun _ event => event.KeepsOrderIds)
      (Config.initial 5) [.order openOrder {}, .proceed, charging]).any
        (fun c => decide (c.enabled (.order openOrder {}) ∧
          c.agv.currentOrder = some (Config.allocateNodes 0 openOrder) ∧
          c.agv.hasCancelingOrder = false ∧
          (c.perform (.order openOrder {})).agv.currentState.errors.length =
            c.agv.currentState.errors.length + 1)) = true := by decide
  obtain ⟨c, run, passed⟩ := Library.exists_run_of_execute passed
  obtain ⟨enabled, current, notCanceling, rejected⟩ := of_decide_eq_true passed
  refine ⟨c, _, run, current, notCanceling, Config.step_eq_some.mpr ⟨enabled, rfl⟩, rejected, ?_⟩
  intro discards
  rw [discards.agv] at rejected
  omega

end Vda5050
