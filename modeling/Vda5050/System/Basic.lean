import Vda5050.MasterController.Machine

/-!
# One master controller and one vehicle

The two controllers with the channels between them. Orders, instant actions and
States are received in the order in which they were published. Messages of one
channel may overtake those of another one, and the publication of a message may
be completed before or after the message has been received.
-/

set_option autoImplicit false

namespace Vda5050

/-- A message as the vehicle receives it. A payload that violates the schema is
kept together with the violation reported by the validation. -/
structure Message (Content : Type) where
  content : Content
  violation : Option (Json × String) := none
  deriving DecidableEq, Repr

/-- An order message that has been received, with the number of States that had
been published by then. -/
structure ReceivedOrder where
  ref : Nat
  published : Nat
  rejected : Bool
  deriving DecidableEq, Repr

/-- An assigned order is known by the position of its cache, and a message of
instant actions by the number of its call, which its handler is told apart by.
States are taken from those the vehicle has published. -/
structure System where
  master : MasterController := {}
  vehicle : Config
  orders : List (Nat × Message Order) := []
  instantActions : List (Nat × Message InstantActions) := []
  dispatched : Nat := 0
  initiated : Nat := 0
  receivedOrders : List ReceivedOrder := []
  rejectedInstantActions : List Nat := []

/-- A call of the master controller may be refused by its client, in which case
no message is sent. -/
inductive SystemEvent where
  | assignOrder (message : Message Order) (sent : Bool)
  | orderPublished (ref : Nat) (succeeded : Bool)
  | initiateInstantActions (message : Message InstantActions) (sent : Bool)
  | instantActionsPublished (pending : MasterController.PendingInstantActions) (succeeded : Bool)
  | dispatchState
  | continueDispatch
  | receiveOrder (adapter : AgvController.AdapterAnswers)
  | receiveInstantActions (adapter : AgvController.AdapterAnswers)
  | vehicle (event : Event)

namespace System

/-! ## Events of the two controllers -/

def orderEvent (adapter : AgvController.AdapterAnswers) (message : Message Order) : Event :=
  match message.violation with
  | none => .order message.content adapter
  | some (payload, text) => .invalidOrder payload text

def instantActionsEvent (adapter : AgvController.AdapterAnswers)
    (message : Message InstantActions) : Event :=
  match message.violation with
  | none => .instantActions message.content adapter
  | some (payload, text) => .invalidInstantActions payload text

/-- Messages are received from the channels only. -/
def isMessage : Event → Bool
  | .order .. | .invalidOrder .. | .instantActions .. | .invalidInstantActions .. => true
  | _ => false

/-- What happens at the master controller. -/
def masterEvent (agvId : AgvId) (sys : System) :
    SystemEvent → Option MasterController.MasterEvent
  | .assignOrder message _ =>
      some (.assignOrder agvId message.content sys.master.orderStateCaches.length)
  | .orderPublished ref succeeded => some (.orderPublished ref succeeded)
  | .initiateInstantActions message _ =>
      some (.initiateInstantActions agvId message.content.actions sys.initiated)
  | .instantActionsPublished pending succeeded =>
      some (.instantActionsPublished pending succeeded)
  | .dispatchState => sys.vehicle.published[sys.dispatched]?.map (.state agvId ·)
  | .continueDispatch => some .continueDispatch
  | .receiveOrder _ | .receiveInstantActions _ | .vehicle _ => none

/-- What happens at the vehicle. -/
def vehicleEvent (sys : System) : SystemEvent → Option Event
  | .receiveOrder adapter => sys.orders.head?.map (orderEvent adapter ·.2)
  | .receiveInstantActions adapter =>
      sys.instantActions.head?.map (instantActionsEvent adapter ·.2)
  | .vehicle event => if isMessage event then none else some event
  | .assignOrder .. | .orderPublished .. | .initiateInstantActions ..
  | .instantActionsPublished .. | .dispatchState | .continueDispatch => none

/-! ## Channels -/

/-- An order with the ids of a cached one is discarded by the master controller. -/
def isDiscarded (agvId : AgvId) (sys : System) (order : Order) : Bool :=
  (sys.master.getOrderStateCache agvId order.orderId order.orderUpdateId).isSome

def sendOrder (agvId : AgvId) (sys : System) (message : Message Order) : System :=
  if sys.isDiscarded agvId message.content then sys
  else { sys with orders := sys.orders ++ [(sys.master.orderStateCaches.length, message)] }

/-- The channels after a call, with the controllers as they were. -/
def send (agvId : AgvId) (sys : System) : SystemEvent → System
  | .assignOrder message sent => if sent then sys.sendOrder agvId message else sys
  | .initiateInstantActions message sent =>
      { sys with
        instantActions :=
          if sent then sys.instantActions ++ [(sys.initiated, message)] else sys.instantActions
        initiated := sys.initiated + 1 }
  | .dispatchState => { sys with dispatched := sys.dispatched + 1 }
  | _ => sys

def isRejection : Observation → Bool
  | .orderRejected _ => true
  | _ => false

/-- The channels after a message has been received, which takes the vehicle to
the given state. -/
def receive (sys : System) (vehicle : Config) : SystemEvent → System
  | .receiveOrder _ =>
      match sys.orders with
      | [] => sys
      | (ref, _) :: orders =>
          { sys with
            orders := orders
            receivedOrders := sys.receivedOrders ++
              [{ ref := ref
                 published := sys.vehicle.published.length
                 rejected := (vehicle.log.drop sys.vehicle.log.length).any isRejection }] }
  | .receiveInstantActions _ =>
      match sys.instantActions with
      | [] => sys
      | (number, message) :: instantActions =>
          { sys with
            instantActions := instantActions
            rejectedInstantActions :=
              if message.violation.isSome then sys.rejectedInstantActions ++ [number]
              else sys.rejectedInstantActions }
  | _ => sys

/-- Nothing happens to the controllers meanwhile. -/
@[simp] theorem receive_master (sys : System) (vehicle : Config) (event : SystemEvent) :
    (sys.receive vehicle event).master = sys.master := by
  cases event with
  | receiveOrder => simp only [receive]; split <;> rfl
  | receiveInstantActions => simp only [receive]; split <;> rfl
  | _ => rfl

/-! ## Steps -/

/-- One step of one of the controllers, `none` if the event cannot occur. -/
def step (agvId : AgvId) (sys : System) (event : SystemEvent) : Option System :=
  match sys.masterEvent agvId event with
  | some happened =>
      (sys.master.step happened).map fun master => { sys.send agvId event with master := master }
  | none =>
      (sys.vehicleEvent event).bind fun happened =>
        (sys.vehicle.step happened).map fun vehicle =>
          { sys.receive vehicle event with vehicle := vehicle }

/-- Either controller makes a step of its own. -/
theorem step_cases {agvId : AgvId} {sys next : System} {event : SystemEvent}
    (stepped : sys.step agvId event = some next) :
    (∃ happened, sys.masterEvent agvId event = some happened ∧ sys.master.enabled happened ∧
        next = { sys.send agvId event with master := sys.master.perform happened }) ∨
      (∃ happened, sys.vehicleEvent event = some happened ∧ sys.vehicle.enabled happened ∧
        next = { sys.receive (sys.vehicle.perform happened) event with
          vehicle := sys.vehicle.perform happened }) := by
  unfold step at stepped
  cases atMaster : sys.masterEvent agvId event with
  | some happened =>
      rw [atMaster] at stepped
      obtain ⟨master, performed, rfl⟩ := Option.map_eq_some_iff.mp stepped
      obtain ⟨enabled, rfl⟩ := MasterController.step_eq_some.mp performed
      exact .inl ⟨happened, rfl, enabled, rfl⟩
  | none =>
      rw [atMaster] at stepped
      obtain ⟨happened, atVehicle, stepped⟩ := Option.bind_eq_some_iff.mp stepped
      obtain ⟨vehicle, performed, rfl⟩ := Option.map_eq_some_iff.mp stepped
      obtain ⟨enabled, rfl⟩ := Config.step_eq_some.mp performed
      exact .inr ⟨happened, atVehicle, enabled, rfl⟩

/-- Both controllers as they are created, with nothing underway. -/
def initial (limit : Nat) : System where
  vehicle := Config.initial limit

end System

/-- Runs of the two controllers whose steps satisfy a condition. -/
abbrev SystemRun (condition : System → SystemEvent → Prop) (agvId : AgvId) (limit : Nat) :
    List SystemEvent → System → Prop :=
  Library.Run (System.step agvId) condition (System.initial limit)

/-- The master controller makes a run of its own. -/
theorem SystemRun.masterRun {condition : System → SystemEvent → Prop} {agvId : AgvId}
    {limit : Nat} {events : List SystemEvent} {sys : System}
    (run : SystemRun condition agvId limit events sys) :
    ∃ happened, MasterController.MasterRun happened sys.master := by
  induction run with
  | start => exact ⟨[], .start⟩
  | advance _ _ stepped ih =>
      obtain ⟨earlier, run⟩ := ih
      rcases System.step_cases stepped with ⟨happened, -, enabled, rfl⟩ | ⟨-, -, -, rfl⟩
      · exact ⟨earlier ++ [happened],
          run.advance trivial (MasterController.step_eq_some.mpr ⟨enabled, rfl⟩)⟩
      · refine ⟨earlier, ?_⟩
        rw [System.receive_master]
        exact run

/-- Executing events by the step function yields a run. -/
theorem SystemRun.exists_of_execute (condition : System → SystemEvent → Prop)
    [∀ sys event, Decidable (condition sys event)] (agvId : AgvId) (limit : Nat)
    (events : List SystemEvent) (check : System → Bool)
    (passed : (Library.execute (System.step agvId) condition (System.initial limit) events).any
      check = true) :
    ∃ sys, SystemRun condition agvId limit events sys ∧ check sys = true :=
  Library.exists_run_of_execute passed

end Vda5050
