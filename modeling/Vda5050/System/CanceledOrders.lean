import Vda5050.AgvController.Cancelation
import Vda5050.MasterController.OrderReports
import Vda5050.System.Underway

/-!
# Reports on canceled orders

Whether the master controller reports the end of an order as a cancelation is
decided by the first State with nothing left of the order. The vehicle reports
several States in the course of a cancelation. Only the last one, which reports
the cancelation as finished, may be the one that decides.
-/

set_option autoImplicit false

namespace Vda5050

namespace System

open MasterController

/-- No error rejects the order. When the end of the cancelation is reported, its
actions have ended, and the master controller decides by the same `cancelOrder`. -/
def EndsAsCanceled (ref : Nat) (actionId : String) (m : MasterController)
    (current : Dispatching) : Prop :=
  (∀ error ∈ current.errors.head?, m.rejectedCache current.agvId error ≠ some ref) ∧
    (current.errors = [] →
      m.getOrderStateCache current.agvId current.state.orderId current.state.orderUpdateId =
        some ref →
      current.state.reportsFinished actionId →
        m.decidingCancelOrder current.agvId = some actionId ∧
          AreActionsEnded { m with dispatching := none } ref current.state)

/-- The dispatch of a State is continued. -/
def continues : SystemEvent → Bool
  | .continueDispatch => true
  | _ => false

/-- While the order is being canceled a part of its base is left, and nothing
else is canceled. -/
structure CancelationReported (ref : Nat) (actionId : String) (sys : System)
    (event : SystemEvent) : Prop where
  base : sys.vehicle.isCanceledBy actionId → sys.vehicle.agv.currentState.hasBase
  alone : sys.vehicle.isCanceledBy actionId →
    ∀ happened ∈ sys.vehicleEvent event, CancelsAlone actionId sys.vehicle happened
  ends : continues event →
    ∀ current ∈ sys.master.dispatching, EndsAsCanceled ref actionId sys.master current

instance (m : MasterController) (ref : Nat) (state : State) :
    Decidable (AreActionsEnded m ref state) :=
  inferInstanceAs (Decidable (∀ _ ∈ m.orderStateCaches[ref]?, ∀ _ ∈ _, ∀ _ ∈ _, _))

instance (ref : Nat) (actionId : String) (m : MasterController) (current : Dispatching) :
    Decidable (EndsAsCanceled ref actionId m current) :=
  inferInstanceAs (Decidable (_ ∧ (_ → _ → _ → _)))

instance (ref : Nat) (actionId : String) (sys : System) (event : SystemEvent) :
    Decidable (CancelationReported ref actionId sys event) :=
  decidable_of_iff
    ((sys.vehicle.isCanceledBy actionId → sys.vehicle.agv.currentState.hasBase) ∧
      (sys.vehicle.isCanceledBy actionId →
        ∀ happened ∈ sys.vehicleEvent event, CancelsAlone actionId sys.vehicle happened) ∧
      (continues event →
        ∀ current ∈ sys.master.dispatching, EndsAsCanceled ref actionId sys.master current))
    ⟨fun ⟨base, alone, ends⟩ => ⟨base, alone, ends⟩, fun fits => ⟨fits.base, fits.alone, fits.ends⟩⟩

/-- The end of an order of the vehicle has not been reported. -/
structure Waits (agvId : AgvId) (key : String × Nat) (ref : Nat) (past : List Notification)
    (m : MasterController) : Prop where
  reports : m.processedReports ref = past
  known : ∃ cache, m.orderStateCaches[ref]? = some cache ∧ cache.agvId = agvId ∧
    (cache.order.orderId, cache.order.orderUpdateId) = key ∧
      cache.isOrderProcessedHandlerInvoked = false

variable {agvId : AgvId} {key : String × Nat} {ref : Nat} {past : List Notification}
  {actionId : String} {m : MasterController} {sys next : System}

namespace Waits

theorem keep (waits : Waits agvId key ref past m) {next : MasterController}
    (unreported : Unreported ref m next) : Waits agvId key ref past next := by
  obtain ⟨reports, cache, known, sameAgv, ids, uncalled⟩ := waits
  obtain ⟨cache', present, same⟩ := unreported.cache cache known
  refine ⟨unreported.processedReports.trans reports, cache', present, ?_, ?_, ?_⟩
  · exact same.agvId.trans sameAgv
  · rw [same.order]
    exact ids
  · exact same.invoked.trans uncalled

/-- The order is found under its own ids only. -/
theorem found (waits : Waits agvId key ref past m) (books : CacheBooks m) {other : AgvId}
    {orderId : String} {orderUpdateId : Nat}
    (found : m.getOrderStateCache other orderId orderUpdateId = some ref) :
    other = agvId ∧ (orderId, orderUpdateId) = key := by
  obtain ⟨-, cache, known, sameAgv, ids, -⟩ := waits
  obtain ⟨cache', present, rfl, rfl, rfl⟩ := books.keyed _ _ _ _ found
  obtain rfl := Option.some.inj (known.symm.trans present)
  exact ⟨sameAgv, ids⟩

theorem bound (waits : Waits agvId key ref past m) : ref < m.orderStateCaches.length := by
  obtain ⟨-, cache, known, -⟩ := waits
  exact (List.getElem?_eq_some_iff.mp known).1

end Waits

/-- How far the cancelation of an order has got. The States about the order
underway list a part of its base, until one that reports the cancelation as
finished. Once this one has been dispatched the order is left, unless the
dispatch has ended the process. -/
inductive Cancelation (agvId : AgvId) (key : String × Nat) (ref : Nat) (actionId : String)
    (past : List Notification) (sys : System) : Prop
  | canceling :
      Waits agvId key ref past sys.master → sys.vehicle.isCanceledBy actionId →
      sys.vehicle.agv.currentState.orderKey = key →
      (∀ state ∈ sys.underway, state.orderKey = key →
        state.hasBase ∨ sys.vehicle.agv.currentState.SameLeft state) →
      Cancelation agvId key ref actionId past sys
  | stopped (before after : List State) (final : State) :
      Waits agvId key ref past sys.master → sys.underway = before ++ final :: after →
      (∀ state ∈ before, state.orderKey = key → state.hasBase) →
      final.orderKey = key → final.nodeStates = [] → final.edgeStates = [] →
      final.reportsFinished actionId → Cancelation agvId key ref actionId past sys
  | left :
      (sys.master.processedReports ref = past ∨
        sys.master.processedReports ref = past ++ [.orderProcessed ref none true false]) →
      ref < sys.master.orderStateCaches.length → ¬ sys.master.IsActive ref →
      Cancelation agvId key ref actionId past sys
  | crashed :
      sys.master.crashed → sys.master.processedReports ref = past →
      Cancelation agvId key ref actionId past sys

namespace Cancelation

/-- The vehicle publishes States. -/
theorem vehicle (cancelation : Cancelation agvId key ref actionId past sys)
    {event : SystemEvent} (fits : CancelationReported ref actionId sys event)
    {happened : Event} {states : List State}
    (atVehicle : sys.vehicleEvent event = some happened)
    (performed : next.vehicle = sys.vehicle.perform happened)
    (published : next.vehicle.published = sys.vehicle.published ++ states)
    (underway : next.underway = sys.underway ++ states) (master : next.master = sys.master) :
    Cancelation agvId key ref actionId past next := by
  cases cancelation with
  | canceling waits canceled orderKey pending =>
      have hasBase := fits.base canceled
      have alone := fits.alone canceled happened atVehicle
      have left : ∀ state ∈ sys.underway, state.orderKey = key → state.hasBase := by
        intro state member about
        cases pending state member about with
        | inl base => exact base
        | inr same =>
            rw [same.hasBase]
            exact hasBase
      by_cases going : ∀ context, happened ≠ .stopped context
      · obtain ⟨stillCanceled, sameKey, added, appended, listed⟩ :=
          Config.perform_goesOn sys.vehicle canceled alone going
        rw [← performed] at stillCanceled sameKey appended listed
        obtain rfl := List.append_cancel_left (published.symm.trans appended)
        apply Cancelation.canceling
        · rw [master]
          exact waits
        · exact stillCanceled
        · exact sameKey.trans orderKey
        · rw [underway]
          intro state member about
          cases List.mem_append.mp member with
          | inl earlier => exact .inl (left state earlier about)
          | inr new =>
              cases (listed state new).2 with
              | inl before =>
                  left
                  rw [before.hasBase]
                  exact hasBase
              | inr after => exact .inr after
      · obtain ⟨context, rfl⟩ := not_forall_not.mp going
        obtain ⟨final, appended, sameKey, nodeStates, edgeStates, finished⟩ :=
          Config.perform_stopped sys.vehicle canceled context alone
        rw [← performed] at appended
        obtain rfl := List.append_cancel_left (published.symm.trans appended)
        apply Cancelation.stopped sys.underway [] final
        · rw [master]
          exact waits
        · exact underway
        · exact left
        · exact sameKey.trans orderKey
        · exact nodeStates
        · exact edgeStates
        · exact finished
  | stopped before after final waits split pending about nodeStates edgeStates finished =>
      apply Cancelation.stopped before (after ++ states) final
      · rw [master]
        exact waits
      · rw [underway, split, List.append_assoc, List.cons_append]
      · exact pending
      · exact about
      · exact nodeStates
      · exact edgeStates
      · exact finished
  | left reports bound inactive =>
      apply Cancelation.left
      · rw [master]
        exact reports
      · rw [master]
        exact bound
      · rw [master]
        exact inactive
  | crashed crash reports =>
      apply Cancelation.crashed
      · rw [master]
        exact crash
      · rw [master]
        exact reports

/-- Nothing is reported on the end of the order, and no State leaves. -/
theorem quiet (cancelation : Cancelation agvId key ref actionId past sys)
    (unreported : Unreported ref sys.master next.master)
    (recedes : Recedes sys.master next.master) (running : sys.master.crashed = false)
    (underway : next.underway = sys.underway) (vehicle : next.vehicle = sys.vehicle) :
    Cancelation agvId key ref actionId past next := by
  cases cancelation with
  | canceling waits canceled orderKey pending =>
      rw [← vehicle] at canceled orderKey pending
      rw [← underway] at pending
      exact .canceling (waits.keep unreported) canceled orderKey pending
  | stopped before after final waits split pending about nodeStates edgeStates finished =>
      rw [← underway] at split
      exact .stopped before after final (waits.keep unreported) split pending about nodeStates
        edgeStates finished
  | left reports bound inactive =>
      apply Cancelation.left
      · rw [unreported.processedReports]
        exact reports
      · exact bound.trans_le recedes.length
      · exact fun active => inactive (recedes.active ref bound active)
  | crashed crash => simp [running] at crash

/-- The dispatch of the first State underway is completed. -/
theorem completed (cancelation : Cancelation agvId key ref actionId past sys)
    (books : CacheBooks sys.master) (owned : Owned sys.master) (channels : Channels agvId sys)
    (fits : CancelationReported ref actionId sys .continueDispatch)
    (running : sys.master.crashed = false) {current : Dispatching}
    (dispatching : sys.master.dispatching = some current) (handled : current.errors = [])
    (underway : sys.underway = current.state :: next.underway)
    (vehicle : next.vehicle = sys.vehicle)
    (performed : next.master = sys.master.continueDispatch) :
    Cancelation agvId key ref actionId past next := by
  have sameAgv := channels.dispatching current dispatching
  have recedes : Recedes sys.master next.master := by
    rw [performed]
    exact continueDispatch_recedes books owned
  -- Nothing is reported if the State lists a part of the base, or is about another order.
  have unreported : (sys.master.getOrderStateCache current.agvId current.state.orderId
      current.state.orderUpdateId = some ref → current.state.hasBase) →
      Unreported ref sys.master next.master := by
    intro going
    rw [performed]
    apply continueDispatch_unreported books
    intro other found
    obtain rfl := Option.some.inj (dispatching.symm.trans found)
    exact ⟨by simp [handled], fun _ => going⟩
  cases cancelation with
  | canceling waits canceled orderKey pending =>
      have hasBase := fits.base canceled
      rw [underway] at pending
      apply Cancelation.canceling
      · apply waits.keep
        apply unreported
        intro found
        cases pending _ List.mem_cons_self (waits.found books found).2 with
        | inl base => exact base
        | inr same =>
            rw [same.hasBase]
            exact hasBase
      · rw [vehicle]
        exact canceled
      · rw [vehicle]
        exact orderKey
      · rw [vehicle]
        exact fun state member => pending state (List.mem_cons_of_mem _ member)
  | stopped before after final waits split pending about nodeStates edgeStates finished =>
      rw [underway] at split
      cases before with
      | cons first before =>
          obtain ⟨rfl, rest⟩ := List.cons.inj split
          apply Cancelation.stopped before after final
          · apply waits.keep
            apply unreported
            exact fun found => pending _ List.mem_cons_self (waits.found books found).2
          · exact rest
          · exact fun state member => pending state (List.mem_cons_of_mem _ member)
          · exact about
          · exact nodeStates
          · exact edgeStates
          · exact finished
      | nil =>
          obtain ⟨rfl, -⟩ := List.cons.inj split
          by_cases found : sys.master.getOrderStateCache current.agvId current.state.orderId
              current.state.orderUpdateId = some ref
          · obtain ⟨decides, ended⟩ :=
              (fits.ends rfl current dispatching).2 handled found finished
            obtain ⟨reports, cache, known, -, -, uncalled⟩ := waits
            have ends := continueDispatch_canceled books dispatching handled found
              (fun other present => by
                obtain rfl := Option.some.inj (known.symm.trans present)
                exact uncalled)
              nodeStates edgeStates ended finished decides
            rw [← performed] at ends
            cases ends with
            | inl stuck => exact .crashed stuck.1 (stuck.2.trans reports)
            | inr ended =>
                apply Cancelation.left
                · right
                  rw [ended.1, reports]
                · exact (List.getElem?_eq_some_iff.mp known).1.trans_le recedes.length
                · exact ended.2
          · have quiet := unreported fun same => absurd same found
            apply Cancelation.left
            · left
              rw [quiet.processedReports]
              exact waits.reports
            · exact waits.bound.trans_le recedes.length
            · intro active
              obtain ⟨other, orderId, orderUpdateId, isFound⟩ :=
                recedes.active ref waits.bound active
              obtain ⟨rfl, rfl⟩ := waits.found books isFound
              apply found
              obtain ⟨sameId, sameUpdateId⟩ := Prod.mk.inj about
              rw [sameAgv, sameId, sameUpdateId]
              exact isFound
  | left reports bound inactive =>
      have quiet := unreported fun found => absurd ⟨_, _, _, found⟩ inactive
      apply Cancelation.left
      · rw [quiet.processedReports]
        exact reports
      · exact bound.trans_le recedes.length
      · exact fun active => inactive (recedes.active ref bound active)
  | crashed crash => simp [running] at crash

theorem step (cancelation : Cancelation agvId key ref actionId past sys)
    (books : CacheBooks sys.master) (owned : Owned sys.master) (channels : Channels agvId sys)
    {event : SystemEvent} (fits : CancelationReported ref actionId sys event)
    (stepped : sys.step agvId event = some next) :
    Cancelation agvId key ref actionId past next := by
  have running : ∀ {happened : MasterEvent}, sys.master.enabled happened →
      sys.master.crashed = false := by
    intro happened enabled
    simp only [MasterController.enabled, Bool.and_eq_true, Bool.not_eq_true'] at enabled
    exact enabled.1
  cases (step_moves channels stepped).2 with
  | vehicle happened states atVehicle performed published underway master =>
      exact cancelation.vehicle fits atVehicle performed published underway master
  | completed current continues enabled dispatching handled underway vehicle performed =>
      subst continues
      exact cancelation.completed books owned channels fits (running enabled) dispatching handled
        underway vehicle performed
  | master happened atMaster enabled continues underway vehicle performed =>
      apply cancelation.quiet
      · rw [performed]
        apply perform_unreported books
        rintro rfl current dispatching
        obtain rfl := masterEvent_continueDispatch atMaster
        constructor
        · exact (fits.ends rfl current dispatching).1
        · exact fun handled => absurd handled (continues rfl current dispatching)
      · rw [performed]
        exact perform_recedes books owned happened
      · exact running enabled
      · exact underway
      · exact vehicle

end Cancelation

/-! ## Runs -/

private theorem step_books (books : CacheBooks sys.master) (owned : Owned sys.master)
    {event : SystemEvent} (stepped : sys.step agvId event = some next) :
    CacheBooks next.master ∧ Owned next.master := by
  rcases step_cases stepped with ⟨happened, -, -, rfl⟩ | ⟨happened, -, -, rfl⟩
  · exact ⟨(perform_move sys.master books happened).books books,
      perform_owned books owned happened⟩
  · rw [receive_master]
    exact ⟨books, owned⟩

/-- The execution of a `cancelOrder` action enters the cancelation. -/
private theorem Cancelation.of_executed (channels : Channels agvId sys)
    (waits : Waits agvId key ref past sys.master)
    {action : Action} (executes : sys.vehicle.nextInstantAction = some action)
    (cancels : action.actionType = "cancelOrder")
    (accepted : sys.vehicle.agv.lacksCurrentOrder = false)
    (orderKey : sys.vehicle.agv.currentState.orderKey = key)
    (pending : ∀ state ∈ sys.underway, state.orderKey = key → state.hasBase)
    (stepped : sys.step agvId (.vehicle .proceed) = some next) :
    Cancelation agvId key ref action.actionId past next := by
  obtain ⟨stays, canceled⟩ := Config.proceed_cancelOrder sys.vehicle executes cancels accepted
  cases (step_moves channels stepped).2 with
  | vehicle happened states atVehicle performed published underway master =>
      obtain rfl := Option.some.inj atVehicle
      rw [show sys.vehicle.perform .proceed = sys.vehicle.proceed from rfl] at performed
      rw [← performed] at stays canceled
      obtain ⟨added, appended, same⟩ := stays.published
      obtain rfl := List.append_cancel_left (published.symm.trans appended)
      apply Cancelation.canceling
      · rw [master]
        exact waits
      · exact canceled
      · exact stays.currentState.orderKey.trans orderKey
      · rw [underway]
        intro state member about
        cases List.mem_append.mp member with
        | inl earlier => exact .inl (pending state earlier about)
        | inr new =>
            obtain ⟨nodeStates, edgeStates⟩ := (same state new).toSameLeft
            right
            constructor
            · rw [nodeStates, stays.currentState.nodeStates]
            · rw [edgeStates, stays.currentState.edgeStates]
  | completed _ other => cases other
  | master _ atMaster => cases atMaster

/-- What is reported on the end of an order that has been canceled: nothing but
the cancelation, and once. The order is left when the vehicle has completed the
cancelation and all of its States have been dispatched. -/
structure ReportedAsCanceled (ref : Nat) (actionId : String) (past : List Notification)
    (sys : System) : Prop where
  reports : sys.master.processedReports ref = past ∨
    sys.master.processedReports ref = past ++ [.orderProcessed ref none true false]
  ended : !sys.vehicle.isCanceledBy actionId → sys.underway = [] →
    sys.master.crashed = false → ¬ sys.master.IsActive ref

private theorem Cancelation.reportedAsCanceled
    (cancelation : Cancelation agvId key ref actionId past sys) :
    ReportedAsCanceled ref actionId past sys := by
  cases cancelation with
  | canceling waits canceled =>
      refine ⟨.inl waits.reports, fun stopped => ?_⟩
      simp [canceled] at stopped
  | stopped before after final waits split =>
      refine ⟨.inl waits.reports, fun _ none => ?_⟩
      simp [none] at split
  | left reports _ inactive => exact ⟨reports, fun _ _ _ => inactive⟩
  | crashed crash reports =>
      refine ⟨.inl reports, fun _ _ running => ?_⟩
      simp [crash] at running

/-- The vehicle executes a `cancelOrder` action on an order whose end has not
been reported, while the States about it underway list a part of its base. If
an order is active on the vehicle, it is one that has been accepted. -/
structure Executes (agvId : AgvId) (ref : Nat) (action : Action) (sys : System) : Prop where
  executes : sys.vehicle.nextInstantAction = some action
  cancels : action.actionType = "cancelOrder"
  accepted : sys.vehicle.agv.lacksCurrentOrder = false
  found : sys.master.getOrderStateCache agvId sys.vehicle.agv.currentState.orderId
    sys.vehicle.agv.currentState.orderUpdateId = some ref
  unprocessed : ∀ cache ∈ sys.master.orderStateCaches[ref]?,
    cache.isOrderProcessedHandlerInvoked = false
  pending : ∀ state ∈ sys.underway,
    state.orderKey = sys.vehicle.agv.currentState.orderKey → state.hasBase

/-- In every run that goes on from the execution of a `cancelOrder` action and
reports the cancelation, the end of the order is reported as a cancelation. -/
theorem canceled_order_reported {limit : Nat} {events later : List SystemEvent} {action : Action}
    {final : System} (run : SystemRun (fun _ _ => True) agvId limit events sys)
    (executes : Executes agvId ref action sys)
    (stepped : sys.step agvId (.vehicle .proceed) = some next)
    (rest : Library.Run (System.step agvId) (CancelationReported ref action.actionId) next later
      final) :
    ReportedAsCanceled ref action.actionId (sys.master.processedReports ref) final := by
  obtain ⟨happened, masterRun⟩ := SystemRun.masterRun run
  have books := CacheBooks.of_run masterRun
  have owned := Owned.of_run masterRun
  have channels := SystemRun.channels run
  obtain ⟨cache, known, sameAgv, orderId, orderUpdateId⟩ := books.keyed _ _ _ _ executes.found
  have waits : Waits agvId sys.vehicle.agv.currentState.orderKey ref
      (sys.master.processedReports ref) sys.master := by
    refine ⟨rfl, cache, known, sameAgv, ?_, executes.unprocessed cache known⟩
    rw [orderId, orderUpdateId]
    rfl
  have entered := Cancelation.of_executed channels waits executes.executes executes.cancels
    executes.accepted rfl executes.pending stepped
  obtain ⟨-, -, -, reached⟩ := rest.invariant
    (fun sys' => CacheBooks sys'.master ∧ Owned sys'.master ∧ Channels agvId sys' ∧
      Cancelation agvId sys.vehicle.agv.currentState.orderKey ref action.actionId
        (sys.master.processedReports ref) sys')
    ⟨(step_books books owned stepped).1, (step_books books owned stepped).2,
      (step_moves channels stepped).1, entered⟩
    fun _ ⟨books, owned, channels, cancelation⟩ fits stepped =>
      ⟨(step_books books owned stepped).1, (step_books books owned stepped).2,
        (step_moves channels stepped).1, cancelation.step books owned channels fits stepped⟩
  exact reached.reportedAsCanceled

/-! ## An order at its last node -/

/-- The adapter of the vehicle honours its contract. -/
def HonorsContract (sys : System) (event : SystemEvent) : Prop :=
  ∀ happened ∈ sys.vehicleEvent event, AdapterContract sys.vehicle happened

instance (sys : System) (event : SystemEvent) : Decidable (HonorsContract sys event) :=
  inferInstanceAs (Decidable (∀ _ ∈ sys.vehicleEvent event, _))

/-- Dispatch the given number of States without errors. -/
def dispatches (count : Nat) : List SystemEvent :=
  (List.replicate count [.dispatchState, .continueDispatch]).flatten

/-- Assign an order, receive it, and have it canceled after the given events of
the vehicle and the dispatch of its States. -/
def untilCanceled (order : Order) (events : List Event) (states : Nat) : List SystemEvent :=
  [.assignOrder { content := order } true, .receiveOrder {}] ++ events.map .vehicle ++
    dispatches states ++
    [.initiateInstantActions { content := ⟨[cancelOrderAction "cancel"]⟩ } true,
      .receiveInstantActions {}, .vehicle .proceed]

def holdPosition : Action where
  actionId := "hold"
  actionType := "holdPosition"
  blockingType := .none

def dockNode : Node where
  nodeId := "dock"
  sequenceId := 0
  released := true
  actions := [holdPosition]

def dockOrder : Order where
  orderId := "order"
  orderUpdateId := 0
  nodes := [dockNode]
  edges := []

def holdContext : ActionContext where
  action := holdPosition
  scope := .node dockNode
  stopDriving := some false
  activeOrderId := some "order"

/-- The vehicle has reached the only node of its order and executes its action. -/
def untilHolding : List SystemEvent :=
  untilCanceled dockOrder
    [.proceed, .proceed, .updateActionStatus holdContext { actionStatus := .running }] 3

/-- The action is stopped, and its end is reported before the cancelation has
been completed. -/
def untilReleased : List SystemEvent :=
  List.replicate 4 (.vehicle .proceed) ++
    [.vehicle (.updateActionStatus holdContext { actionStatus := .failed })] ++ dispatches 2

/-- The vehicle drives along the edge of its order. -/
def untilDriving : List SystemEvent := untilCanceled (driveOrder "order" [] [] []) [.proceed] 2

def untilStopped : List SystemEvent :=
  List.replicate 3 (.vehicle .proceed) ++ [.vehicle (.stopped ⟨some (cancelContext "cancel")⟩)] ++
    dispatches 2

/-- The end of a canceled order is reported as if it had been completed. -/
theorem not_canceled_order_reported :
    ∃ sys next final, SystemRun HonorsContract MasterController.vehicle 5 untilHolding sys ∧
      sys.vehicle.nextInstantAction = some (cancelOrderAction "cancel") ∧
      sys.vehicle.agv.hasActiveOrder ∧ sys.underway = [] ∧
      sys.master.getOrderStateCache MasterController.vehicle "order" 0 = some 0 ∧
      sys.master.processedReports 0 = [] ∧
      sys.step MasterController.vehicle (.vehicle .proceed) = some next ∧
      Library.Run (System.step MasterController.vehicle) HonorsContract next untilReleased final ∧
      final.master.processedReports 0 = [.orderProcessed 0 none false false] := by
  obtain ⟨sys, run, passed⟩ := SystemRun.exists_of_execute HonorsContract MasterController.vehicle 5
    untilHolding
    (fun sys => sys.vehicle.nextInstantAction = some (cancelOrderAction "cancel") &&
      sys.vehicle.agv.hasActiveOrder && sys.underway = [] &&
      sys.master.getOrderStateCache MasterController.vehicle "order" 0 = some 0 &&
      sys.master.processedReports 0 = [] &&
      (sys.step MasterController.vehicle (.vehicle .proceed)).any fun next =>
        (Library.execute (System.step MasterController.vehicle) HonorsContract next
          untilReleased).any fun final =>
            final.master.processedReports 0 = [.orderProcessed 0 none false false])
    (by decide)
  simp only [Bool.and_eq_true, decide_eq_true_eq] at passed
  obtain ⟨⟨⟨⟨⟨executes, active⟩, idle⟩, found⟩, unreported⟩, continued⟩ := passed
  cases stepped : sys.step MasterController.vehicle (.vehicle .proceed) with
  | none => simp [stepped] at continued
  | some next =>
      rw [stepped] at continued
      obtain ⟨final, rest, reported⟩ := Library.exists_run_of_execute continued
      exact ⟨sys, next, final, run, executes, active, idle, found, unreported, stepped, rest,
        by simpa using reported⟩

/-- The order of a vehicle that is on its way is reported as canceled. -/
theorem canceled_order_reported_of_driving :
    ∃ sys next final, SystemRun (fun _ _ => True) MasterController.vehicle 5 untilDriving sys ∧
      sys.step MasterController.vehicle (.vehicle .proceed) = some next ∧
      Library.Run (System.step MasterController.vehicle) (CancelationReported 0 "cancel") next
        untilStopped final ∧
      final.master.processedReports 0 ≠ [] ∧ ReportedAsCanceled 0 "cancel" [] final := by
  obtain ⟨sys, run, passed⟩ := SystemRun.exists_of_execute (fun _ _ => True)
    MasterController.vehicle 5 untilDriving
    (fun sys => sys.vehicle.nextInstantAction = some (cancelOrderAction "cancel") &&
      sys.vehicle.agv.lacksCurrentOrder = false &&
      sys.master.getOrderStateCache MasterController.vehicle
        sys.vehicle.agv.currentState.orderId sys.vehicle.agv.currentState.orderUpdateId = some 0 &&
      decide (∀ cache : OrderStateCache, cache ∈ sys.master.orderStateCaches[0]? →
        cache.isOrderProcessedHandlerInvoked = false) &&
      sys.underway = [] && sys.master.processedReports 0 = [] &&
      (sys.step MasterController.vehicle (.vehicle .proceed)).any fun next =>
        (Library.execute (System.step MasterController.vehicle) (CancelationReported 0 "cancel")
          next untilStopped).any fun final => final.master.processedReports 0 ≠ [])
    (by decide)
  simp only [Bool.and_eq_true, decide_eq_true_eq] at passed
  obtain ⟨⟨⟨⟨⟨⟨executes, accepted⟩, found⟩, uncalled⟩, idle⟩, unreported⟩, continued⟩ := passed
  have starts : Executes MasterController.vehicle 0 (cancelOrderAction "cancel") sys :=
    ⟨executes, rfl, accepted, found, uncalled, by simp [idle]⟩
  cases stepped : sys.step MasterController.vehicle (.vehicle .proceed) with
  | none => simp [stepped] at continued
  | some next =>
      rw [stepped] at continued
      obtain ⟨final, rest, reported⟩ := Library.exists_run_of_execute continued
      have canceled := canceled_order_reported run starts stepped rest
      rw [unreported] at canceled
      exact ⟨sys, next, final, run, stepped, rest, by simpa using reported, canceled⟩

end System

end Vda5050
