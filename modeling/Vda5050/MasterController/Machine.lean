import Vda5050.MasterController.Orders
import Vda5050.AgvController.Machine
import Vda5050.Library.Run

/-!
# The master controller as a machine

Calls of the application, the completion of their publications, and States of
the vehicles. The dispatch of a State is divided at the errors of the State, as
the handler called for an error may assign orders before the next error is
looked at. What other handlers do has the same effect before or after it.
-/

set_option autoImplicit false

namespace Vda5050

namespace MasterController

/-! ## Instant actions -/

def setActionStateCaches (m : MasterController) (ref : Nat)
    (caches : List (String × InstantActionStateCache)) : MasterController :=
  { m with actionStateCaches := m.actionStateCaches.set ref caches }

/-- `_removeInstantActionStateCache` -/
def removeInstantActionStateCache (m : MasterController) (cache : InstantActionStateCache) :
    MasterController :=
  match m.currentInstantActions.lookup cache.agvId with
  | none => m
  | some ref =>
      let caches := deleteEntry cache.action.actionId ((m.actionStateCaches[ref]?).getD [])
      let m := m.setActionStateCaches ref caches
      if caches.isEmpty then
        { m with currentInstantActions := deleteEntry cache.agvId m.currentInstantActions }
      else m

/-- `_dispatchInstantActionState`, on a cache of the map at `ref`. -/
def dispatchInstantActionState (m : MasterController) (ref : Nat) (actionState : ActionState)
    (cache : InstantActionStateCache) (state : State) : MasterController :=
  if (cache.lastActionState.map (·.actionStatus)) = some actionState.actionStatus then m
  else
    let cache := { cache with lastActionState := some actionState }
    let m := m.setActionStateCaches ref
      (setEntry cache.action.actionId cache ((m.actionStateCaches[ref]?).getD []))
    let m := if actionState.actionStatus.isEnded then m.removeInstantActionStateCache cache else m
    let error :=
      if actionState.actionStatus = .failed then
        getActionError (errorsOf state) cache.action.actionId true
      else none
    m.notify (.instantActionStateChanged cache actionState error)

/-- `_dispatchInstantActionError` -/
def dispatchInstantActionError (m : MasterController) (error : Error)
    (cache : InstantActionStateCache) : MasterController :=
  (m.removeInstantActionStateCache cache).notify (.instantActionError cache error)

/-- `_getInstantActionsValidationError` -/
def getInstantActionsValidationError (m : MasterController) (instantActionsRef : Nat) :
    Option Error :=
  (m.currentInstantActionsValidationErrors.find? (·.1 = (instantActionsRef : Int))).map (·.2)

def isInstantActionsValidationError (error : Error) : Bool :=
  let refs := error.errorReferences.getD []
  error.errorType = ErrorType.instantActionValidation &&
    refs.any (fun r => r.referenceKey = "topic" && r.referenceValue = .str Topic.instantActions) &&
    !refs.any (·.referenceKey = "orderId") && !refs.any (·.referenceKey = "actionId")

/-- `_updateInstantActionsValidationError` -/
def updateInstantActionsValidationError (m : MasterController) (errors : List Error) :
    MasterController :=
  match m.currentInstantActionsRef with
  | none => m
  | some currentRef =>
      let validationErrors := errors.filter isInstantActionsValidationError
      let known := m.currentInstantActionsValidationErrors
      if known.length < validationErrors.length then
        let new := (validationErrors.drop known.length).zipIdx.map fun entry =>
          ((currentRef : Int) - entry.2, entry.1)
        { m with currentInstantActionsValidationErrors := known ++ new }
      else
        { m with
          currentInstantActionsValidationErrors :=
            known.drop (known.length - validationErrors.length) }

/-- One step of the loop over the instant actions of an AGV. -/
def dispatchInstantAction (ref : Nat) (state : State) (m : MasterController)
    (entry : String × InstantActionStateCache) : MasterController :=
  match state.actionStates.find? (·.actionId = entry.1) with
  | some actionState => m.dispatchInstantActionState ref actionState entry.2 state
  | none =>
      match getActionError (errorsOf state) entry.1 true <|>
          m.getInstantActionsValidationError entry.2.instantActionsRef with
      | some error => m.dispatchInstantActionError error entry.2
      | none => m

def dispatchInstantActions (m : MasterController) (agvId : AgvId) (state : State) :
    MasterController :=
  let m := m.updateInstantActionsValidationError (errorsOf state)
  match m.currentInstantActions.lookup agvId with
  | none => m
  | some ref =>
      ((m.actionStateCaches[ref]?).getD []).foldl (dispatchInstantAction ref state) m

/-! ## States -/

/-- The cache of an assigned order that an error rejects. -/
def rejectedCache (m : MasterController) (agvId : AgvId) (error : Error) : Option Nat :=
  (rejectedOrder error).bind fun (orderId, orderUpdateId) =>
    if 0 ≤ orderUpdateId then m.getOrderStateCache agvId orderId orderUpdateId.toNat else none

/-- One step of the loop over the errors of a State. -/
def dispatchError (m : MasterController) (agvId : AgvId) (error : Error) : MasterController :=
  match m.rejectedCache agvId error with
  | none => m
  | some ref =>
      (m.removeOrderStateCache ref false).notify (.orderProcessed ref (some error) false false)

/-- The part of `_dispatchState` on the order the State is about. -/
def dispatchCurrentOrder (m : MasterController) (agvId : AgvId) (state : State) :
    MasterController :=
  match m.getOrderStateCache agvId state.orderId state.orderUpdateId with
  | none => m
  | some ref => m.dispatchOrderState state ref

/-- `_dispatchState`, up to the loop over the errors. -/
def dispatchState (m : MasterController) (agvId : AgvId) (state : State) : MasterController :=
  { m with dispatching := some { agvId := agvId, state := state, errors := errorsOf state } }

/-- `_dispatchState`, after the loop over the errors. -/
def dispatchOrderAndActions (m : MasterController) (agvId : AgvId) (state : State) :
    MasterController :=
  let m := m.dispatchCurrentOrder agvId state
  if m.crashed then m else m.dispatchInstantActions agvId state

/-- Look at the next error of the State being dispatched, or finish. -/
def continueDispatch (m : MasterController) : MasterController :=
  match m.dispatching with
  | none => m
  | some current =>
      match current.errors with
      | error :: errors =>
          { m with dispatching := some { current with errors := errors } }.dispatchError
            current.agvId error
      | [] =>
          { m with dispatching := none }.dispatchOrderAndActions current.agvId current.state

/-! ## Calls of the application -/

/-- `assignOrder`, up to the publication. The order consists of new objects. -/
def assignOrder (m : MasterController) (agvId : AgvId) (order : Order) (eventHandler : Nat) :
    MasterController :=
  match m.getOrderStateCache agvId order.orderId order.orderUpdateId with
  | some _ => m
  | none =>
      let ref := m.orderStateCaches.length
      let m := m.addOrderStateCache agvId (Config.allocateNodes ref order) eventHandler
      { m with pendingOrders := m.pendingOrders ++ [ref] }

/-- The publication of an assigned order has succeeded or failed. -/
def orderPublished (m : MasterController) (ref : Nat) (succeeded : Bool) : MasterController :=
  let m := { m with pendingOrders := m.pendingOrders.erase ref }
  if succeeded then m else m.removeOrderStateCache ref false

/-- `initiateInstantActions`, up to the publication. -/
def initiateInstantActions (m : MasterController) (agvId : AgvId) (actions : List Action)
    (eventHandler : Nat) : MasterController :=
  let (ref, m) :=
    match m.currentInstantActions.lookup agvId with
    | some ref => (ref, m)
    | none =>
        (m.actionStateCaches.length,
          { m with
            actionStateCaches := m.actionStateCaches ++ [[]]
            currentInstantActions :=
              setEntry agvId m.actionStateCaches.length m.currentInstantActions })
  let instantActionsRef := m.currentInstantActionsRef.elim 1 (· + 1)
  let caches := actions.foldl
    (fun entries action => setEntry action.actionId
      { agvId := agvId
        action := action
        eventHandler := eventHandler
        instantActionsRef := instantActionsRef } entries)
    ((m.actionStateCaches[ref]?).getD [])
  { m.setActionStateCaches ref caches with
    pendingInstantActions := m.pendingInstantActions ++
      [{ agvId := agvId
         actionStateCaches := ref
         actions := actions
         instantActionsRef := instantActionsRef }] }

/-- The publication of instant actions has succeeded or failed. -/
def instantActionsPublished (m : MasterController) (pending : PendingInstantActions)
    (succeeded : Bool) : MasterController :=
  let m := { m with pendingInstantActions := m.pendingInstantActions.erase pending }
  if succeeded then { m with currentInstantActionsRef := some pending.instantActionsRef }
  else
    let caches := pending.actions.foldl (fun entries action => deleteEntry action.actionId entries)
      ((m.actionStateCaches[pending.actionStateCaches]?).getD [])
    let m := m.setActionStateCaches pending.actionStateCaches caches
    if caches.isEmpty then
      { m with currentInstantActions := deleteEntry pending.agvId m.currentInstantActions }
    else m

/-! ## Steps -/

inductive MasterEvent where
  | assignOrder (agvId : AgvId) (order : Order) (eventHandler : Nat)
  | orderPublished (ref : Nat) (succeeded : Bool)
  | initiateInstantActions (agvId : AgvId) (actions : List Action) (eventHandler : Nat)
  | instantActionsPublished (pending : PendingInstantActions) (succeeded : Bool)
  | state (agvId : AgvId) (state : State)
  | continueDispatch

/-- Nothing but calls of handlers interrupts the dispatch of a State. -/
def enabled (m : MasterController) (event : MasterEvent) : Bool :=
  !m.crashed &&
    match event with
    | .assignOrder .. | .initiateInstantActions .. => true
    | .orderPublished ref _ => m.dispatching.isNone && m.pendingOrders.contains ref
    | .instantActionsPublished pending _ =>
        m.dispatching.isNone && m.pendingInstantActions.contains pending
    | .state .. => m.dispatching.isNone
    | .continueDispatch => m.dispatching.isSome

def perform (m : MasterController) : MasterEvent → MasterController
  | .assignOrder agvId order eventHandler => m.assignOrder agvId order eventHandler
  | .orderPublished ref succeeded => m.orderPublished ref succeeded
  | .initiateInstantActions agvId actions eventHandler =>
      m.initiateInstantActions agvId actions eventHandler
  | .instantActionsPublished pending succeeded => m.instantActionsPublished pending succeeded
  | .state agvId state => m.dispatchState agvId state
  | .continueDispatch => m.continueDispatch

/-- One step of the master controller, `none` if the event cannot occur. -/
def step (m : MasterController) (event : MasterEvent) : Option MasterController :=
  if m.enabled event then some (m.perform event) else none

theorem step_eq_some {m next : MasterController} {event : MasterEvent} :
    m.step event = some next ↔ m.enabled event ∧ m.perform event = next := by
  simp [step]

/-- Runs of a master controller that has just been created. -/
abbrev MasterRun : List MasterEvent → MasterController → Prop :=
  Library.Run step (fun _ _ => True) {}

/-- Executing events by the step function yields a run. -/
theorem MasterRun.exists_of_execute (events : List MasterEvent) (check : MasterController → Bool)
    (passed : (Library.execute step (fun _ _ => True) {} events).any check = true) :
    ∃ m, MasterRun events m ∧ check m = true :=
  Library.exists_run_of_execute passed

end MasterController

end Vda5050
