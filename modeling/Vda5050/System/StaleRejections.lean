import Vda5050.AgvController.AcceptedOrder
import Vda5050.MasterController.OrderReports
import Vda5050.System.Underway

/-!
# Stale rejections

The error of a rejected order stays in the state of the vehicle until it accepts
another one, and the master controller relates errors to orders by their ids
only. A State that was published before the vehicle has received an order may
therefore carry the error of an order assigned earlier under the same ids.
-/

set_option autoImplicit false

namespace Vda5050

namespace System

open MasterController

/-- The vehicle has received the order and rejected it. -/
def isRejected (sys : System) (ref : Nat) : Bool :=
  sys.receivedOrders.any fun received => received.ref = ref && received.rejected

/-- The vehicle has received the order and not rejected it. -/
def isTaken (sys : System) (ref : Nat) : Bool :=
  sys.receivedOrders.any fun received => received.ref = ref && !received.rejected

/-- The State dispatched last was published after the vehicle had received the order. -/
def isAnswered (sys : System) (ref : Nat) : Bool :=
  sys.receivedOrders.any fun received =>
    received.ref = ref && received.published < sys.dispatched

/-- The master controller takes the error for the rejection of an order that the
vehicle has not rejected. -/
def isMisleading (agvId : AgvId) (sys : System) (error : Error) : Bool :=
  (sys.master.rejectedCache agvId error).any sys.isTaken

/-- An error that rejects an order is looked at in a State published after the
order was received. The vehicle begins the orders it does not reject, or keeps no
error that rejects them, and errors are not about orders it has taken before. -/
def RejectsInTime (agvId : AgvId) (sys : System) : SystemEvent → Prop
  | .continueDispatch =>
      ∀ current ∈ sys.master.dispatching, ∀ error ∈ current.errors.head?,
        ∀ ref ∈ sys.master.rejectedCache agvId error, sys.isAnswered ref
  | .receiveOrder adapter =>
      ∀ entry ∈ sys.orders.head?,
        (∀ error ∈ (orderEvent adapter entry.2).suppliedErrors sys.vehicle,
          isRejectionOf entry.2.content error ∨ sys.isMisleading agvId error = false) ∧
        (entry.2.violation = none →
          KeepsNoRejection sys.vehicle.agv entry.2.content
            (sys.vehicle.agv.decideOrder adapter
              (Config.allocateNodes sys.vehicle.received entry.2.content)))
  | .vehicle event =>
      ∀ error ∈ event.suppliedErrors sys.vehicle, sys.isMisleading agvId error = false
  | _ => True

instance (agvId : AgvId) (sys : System) (event : SystemEvent) :
    Decidable (RejectsInTime agvId sys event) :=
  match event with
  | .continueDispatch => inferInstanceAs (Decidable (∀ _ ∈ _, ∀ _ ∈ _, ∀ _ ∈ _, _))
  | .receiveOrder _ => inferInstanceAs (Decidable (∀ _ ∈ _, (∀ _ ∈ _, _ ∨ _) ∧ (_ → _)))
  | .vehicle _ => inferInstanceAs (Decidable (∀ _ ∈ _, _))
  | .assignOrder .. | .orderPublished .. | .initiateInstantActions .. | .instantActionsPublished ..
  | .dispatchState | .receiveInstantActions _ => isTrue trivial

/-! ## Orders underway -/

/-- The orders of a vehicle are received in the order of their assignment, and
assigned under their own ids. -/
structure OrdersUnderway (agvId : AgvId) (m : MasterController)
    (orders : List (Nat × Message Order)) (receivedOrders : List ReceivedOrder) : Prop where
  sorted : orders.Pairwise (·.1 < ·.1)
  later : ∀ received ∈ receivedOrders, ∀ entry ∈ orders, received.ref < entry.1
  assigned : ∀ entry ∈ orders, entry.1 < m.orderStateCaches.length
  received : ∀ received ∈ receivedOrders, received.ref < m.orderStateCaches.length
  latest : ∀ entry ∈ orders, ∀ ref,
    m.getOrderStateCache agvId entry.2.content.orderId entry.2.content.orderUpdateId = some ref →
      entry.1 ≤ ref
  own : ∀ entry ∈ orders, ∀ orderId orderUpdateId,
    m.getOrderStateCache agvId orderId orderUpdateId = some entry.1 →
      orderId = entry.2.content.orderId ∧ orderUpdateId = entry.2.content.orderUpdateId

variable {agvId : AgvId} {m next : MasterController} {orders : List (Nat × Message Order)}
  {receivedOrders : List ReceivedOrder} {error : Error} {ref : Nat}

theorem OrdersUnderway.initial (agvId : AgvId) (m : MasterController) :
    OrdersUnderway agvId m [] [] := by
  constructor <;> simp

/-- Caches are added for new orders only. -/
theorem OrdersUnderway.move {assigned : AgvId → String → Nat → Prop}
    (underway : OrdersUnderway agvId m orders receivedOrders) (move : CachesMove assigned m next) :
    OrdersUnderway agvId next orders receivedOrders where
  sorted := underway.sorted
  later := underway.later
  assigned entry member := (underway.assigned entry member).trans_le move.length
  received entry member := (underway.received entry member).trans_le move.length
  latest := by
    intro entry member ref found
    rcases move.found _ _ _ _ found with old | ⟨new, -⟩
    · exact underway.latest entry member ref old
    · exact (underway.assigned entry member).le.trans new
  own := by
    intro entry member orderId orderUpdateId found
    rcases move.found _ _ _ _ found with old | ⟨new, -⟩
    · exact underway.own entry member orderId orderUpdateId old
    · exact absurd (underway.assigned entry member) (Nat.not_lt.mpr new)

/-- An order is sent when it has been assigned. -/
theorem OrdersUnderway.send (underway : OrdersUnderway agvId m orders receivedOrders)
    (books : CacheBooks m) {message : Message Order}
    (unknown : m.getOrderStateCache agvId message.content.orderId
      message.content.orderUpdateId = none) :
    OrdersUnderway agvId (m.assignOrder agvId message.content m.orderStateCaches.length)
      (orders ++ [(m.orderStateCaches.length, message)]) receivedOrders := by
  have move := perform_move m books
    (.assignOrder agvId message.content m.orderStateCaches.length)
  have old := underway.move move
  have length : m.orderStateCaches.length <
      (m.assignOrder agvId message.content m.orderStateCaches.length).orderStateCaches.length := by
    simp [MasterController.assignOrder, unknown, addOrderStateCache]
  constructor
  · rw [List.pairwise_append]
    refine ⟨old.sorted, List.pairwise_singleton _ _, ?_⟩
    intro entry member other new
    rw [List.mem_singleton.mp new]
    exact underway.assigned entry member
  · intro received member entry listed
    cases List.mem_append.mp listed with
    | inl earlier => exact old.later received member entry earlier
    | inr new =>
        rw [List.mem_singleton.mp new]
        exact underway.received received member
  · intro entry member
    cases List.mem_append.mp member with
    | inl earlier => exact old.assigned entry earlier
    | inr new =>
        rw [List.mem_singleton.mp new]
        exact length
  · exact old.received
  · intro entry member ref found
    cases List.mem_append.mp member with
    | inl earlier => exact old.latest entry earlier ref found
    | inr new =>
        rw [List.mem_singleton.mp new] at found ⊢
        rcases move.found _ _ _ _ found with before | ⟨fresh, -⟩
        · cases unknown.symm.trans before
        · exact fresh
  · intro entry member orderId orderUpdateId found
    cases List.mem_append.mp member with
    | inl earlier => exact old.own entry earlier orderId orderUpdateId found
    | inr new =>
        rw [List.mem_singleton.mp new] at found ⊢
        rcases move.found _ _ _ _ found with before | ⟨-, given⟩
        · obtain ⟨cache, present, -⟩ := books.keyed _ _ _ _ before
          exact absurd (List.getElem?_eq_some_iff.mp present).1 (lt_irrefl _)
        · simpa [MasterEvent.Assigns] using given

/-- The vehicle receives the first order of the channel. -/
theorem OrdersUnderway.receive {entry : Nat × Message Order}
    (underway : OrdersUnderway agvId m (entry :: orders) receivedOrders) (published : Nat)
    (rejected : Bool) :
    OrdersUnderway agvId m orders
      (receivedOrders ++ [{ ref := entry.1, published := published, rejected := rejected }]) := by
  obtain ⟨first, sorted⟩ := List.pairwise_cons.mp underway.sorted
  constructor
  · exact sorted
  · intro received member other listed
    cases List.mem_append.mp member with
    | inl earlier => exact underway.later received earlier other (List.mem_cons_of_mem _ listed)
    | inr new =>
        rw [List.mem_singleton.mp new]
        exact first other listed
  · exact fun other listed => underway.assigned other (List.mem_cons_of_mem _ listed)
  · intro received member
    cases List.mem_append.mp member with
    | inl earlier => exact underway.received received earlier
    | inr new =>
        rw [List.mem_singleton.mp new]
        exact underway.assigned entry List.mem_cons_self
  · exact fun other listed => underway.latest other (List.mem_cons_of_mem _ listed)
  · exact fun other listed => underway.own other (List.mem_cons_of_mem _ listed)

/-! ## Errors that reject orders -/

private theorem rejectedCache_eq_some :
    m.rejectedCache agvId error = some ref ↔
      ∃ orderId orderUpdateId, rejectedOrder error = some (orderId, ((orderUpdateId : Nat) : Int)) ∧
        m.getOrderStateCache agvId orderId orderUpdateId = some ref := by
  unfold rejectedCache
  constructor
  · intro found
    obtain ⟨⟨orderId, orderUpdateId⟩, rejects, found⟩ := Option.bind_eq_some_iff.mp found
    dsimp only at found
    split at found
    · next nonnegative =>
      refine ⟨orderId, orderUpdateId.toNat, ?_, found⟩
      rw [rejects, Int.toNat_of_nonneg nonnegative]
    · cases found
  · rintro ⟨orderId, orderUpdateId, rejects, found⟩
    simp [rejects, found]

private theorem rejectedCache_of_none (none : rejectedOrder error = none) :
    m.rejectedCache agvId error = Option.none := by
  simp [rejectedCache, none]

/-- An error does not come to reject an order that is in the caches already. -/
private theorem rejectedCache_move {assigned : AgvId → String → Nat → Prop}
    (move : CachesMove assigned m next) (found : next.rejectedCache agvId error = some ref)
    (known : ref < m.orderStateCaches.length) : m.rejectedCache agvId error = some ref := by
  obtain ⟨orderId, orderUpdateId, rejects, found⟩ := rejectedCache_eq_some.mp found
  rcases move.found _ _ _ _ found with old | ⟨new, -⟩
  · exact rejectedCache_eq_some.mpr ⟨orderId, orderUpdateId, rejects, old⟩
  · exact absurd known (Nat.not_lt.mpr new)

/-- An order underway is not rejected by errors on other orders. -/
theorem OrdersUnderway.isRejectionOf {entry : Nat × Message Order}
    (underway : OrdersUnderway agvId m (entry :: orders) receivedOrders)
    (found : m.rejectedCache agvId error = some entry.1) :
    MasterController.isRejectionOf entry.2.content error := by
  obtain ⟨orderId, orderUpdateId, rejects, found⟩ := rejectedCache_eq_some.mp found
  obtain ⟨rfl, rfl⟩ := underway.own entry List.mem_cons_self _ _ found
  simp [MasterController.isRejectionOf, rejects]

/-- An error on an order underway does not reject an order received before. -/
private theorem OrdersUnderway.rejectedCache_ne {entry : Nat × Message Order}
    (underway : OrdersUnderway agvId m (entry :: orders) receivedOrders)
    (rejects : MasterController.isRejectionOf entry.2.content error) {received : ReceivedOrder}
    (member : received ∈ receivedOrders) : m.rejectedCache agvId error ≠ some received.ref := by
  intro found
  obtain ⟨orderId, orderUpdateId, about, found⟩ := rejectedCache_eq_some.mp found
  obtain ⟨rfl, same⟩ := Prod.mk.inj (Option.some.inj (about.symm.trans (by simpa
    [MasterController.isRejectionOf] using rejects)))
  obtain rfl := Int.ofNat.inj same
  have before := underway.later received member entry List.mem_cons_self
  exact absurd (underway.latest entry List.mem_cons_self _ found) (Nat.not_le.mpr before)

/-! ## Orders the vehicle has not rejected -/

/-- The process of the vehicle has ended. -/
def isHalted (vehicle : Config) : Bool := vehicle.crashed && vehicle.stack.isEmpty

private theorem not_isHalted_of_enabled {vehicle : Config} {event : Event}
    (enabled : vehicle.enabled event) : isHalted vehicle = false := by
  by_contra halted
  rw [Bool.not_eq_false] at halted
  obtain ⟨crashed, stack⟩ : vehicle.crashed = true ∧ vehicle.stack = [] := by
    simpa [isHalted] using halted
  cases event <;>
    simp [Config.enabled, Config.isIdle, Config.adapterMayCall, crashed, stack] at enabled

/-- The vehicle has received an order, and none of its errors since rejects it. -/
structure Cleared (agvId : AgvId) (m : MasterController) (vehicle : Config)
    (received : ReceivedOrder) : Prop where
  errors : isHalted vehicle = false → ∀ error ∈ vehicle.agv.currentState.errors,
    m.rejectedCache agvId error.error ≠ some received.ref
  published : ∀ state ∈ vehicle.published.drop received.published, ∀ error ∈ errorsOf state,
    m.rejectedCache agvId error ≠ some received.ref

namespace Cleared

variable {vehicle later : Config} {received : ReceivedOrder}

theorem move (cleared : Cleared agvId m vehicle received)
    {assigned : AgvId → String → Nat → Prop} (move : CachesMove assigned m next)
    (known : received.ref < m.orderStateCaches.length) : Cleared agvId next vehicle received where
  errors running error member found :=
    cleared.errors running error member (rejectedCache_move move found known)
  published state member error reported found :=
    cleared.published state member error reported (rejectedCache_move move found known)

/-- States are published, and their errors tell nothing about the order. -/
theorem publish (cleared : Cleared agvId m vehicle received) (running : isHalted vehicle = false)
    {allowed : Error → Prop} (move : ErrorsMove allowed vehicle later)
    (harmless : ∀ error, allowed error → m.rejectedCache agvId error ≠ some received.ref) :
    Cleared agvId m later received := by
  have sources : ∀ error : Error, (allowed error ∨
      ∃ original ∈ vehicle.agv.currentState.errors, original.error = error) →
      m.rejectedCache agvId error ≠ some received.ref := by
    rintro error (allows | ⟨original, old, rfl⟩)
    · exact harmless error allows
    · exact cleared.errors running original old
  constructor
  · intro _ error member
    exact sources error.error (move.source member)
  · obtain ⟨states, published, new⟩ := move.published
    intro state member error reported
    rw [published, List.drop_append] at member
    cases List.mem_append.mp member with
    | inl earlier => exact cleared.published state earlier error reported
    | inr added =>
        obtain ⟨stateError, listed, rfl⟩ := List.mem_map.mp reported
        exact sources stateError.error (new state (List.mem_of_mem_drop added) stateError listed)

end Cleared

/-- An order that is received and not rejected is cleared. -/
theorem Cleared.receive {entry : Nat × Message Order}
    (underway : OrdersUnderway agvId m (entry :: orders) receivedOrders) {vehicle : Config}
    (books : ErrorBooks vehicle.agv) {adapter : AgvController.AdapterAnswers}
    (keeps : entry.2.violation = none → KeepsNoRejection vehicle.agv entry.2.content
      (vehicle.agv.decideOrder adapter (Config.allocateNodes vehicle.received entry.2.content)))
    (taken : ((vehicle.perform (orderEvent adapter entry.2)).log.drop vehicle.log.length).any
      isRejection = false) :
    Cleared agvId m (vehicle.perform (orderEvent adapter entry.2))
      { ref := entry.1, published := vehicle.published.length, rejected := false } := by
  obtain ⟨ref, content, violation⟩ := entry
  cases violation with
  | none =>
      have notRejected : ∀ error, vehicle.agv.decideOrder adapter
          (Config.allocateNodes vehicle.received content) ≠ .reject error := by
        intro error decided
        have log := Config.processOrder_log_of_reject vehicle decided
        simp [orderEvent, Config.perform, log, isRejection] at taken
      have left := books.processOrder_notRejected (keeps rfl) notRejected
      have other : ∀ error, isRejectionOf content error = false →
          m.rejectedCache agvId error ≠ some ref := by
        intro error accepted found
        have rejects := underway.isRejectionOf found
        simp [accepted] at rejects
      obtain ⟨states, published, same⟩ := vehicle.processOrder_publishesErrors content adapter
      constructor
      · intro _ error member
        exact other error.error (left error member)
      · intro state member error reported
        have member : state ∈ (vehicle.processOrder content adapter).published.drop
          vehicle.published.length := member
        rw [published, List.drop_left] at member
        obtain ⟨stateError, listed, rfl⟩ := List.mem_map.mp reported
        rw [same state member] at listed
        exact other stateError.error (left stateError listed)
  | some violation =>
      obtain ⟨payload, text⟩ := violation
      rcases vehicle.processInvalidOrder_log payload text with ⟨error, log⟩ | crashed
      · simp [orderEvent, Config.perform, log, isRejection] at taken
      · have performed : vehicle.perform (orderEvent adapter
            { content := content, violation := some (payload, text) }) =
            vehicle.throwTypeError := crashed
        rw [performed]
        constructor
        · intro running
          simp [isHalted, Config.throwTypeError] at running
        · intro state member
          simp [Config.throwTypeError] at member

/-! ## Steps -/

/-- The State being dispatched is the one published last of those dispatched. -/
def DispatchesPublished (sys : System) : Prop :=
  ∀ current, sys.master.dispatching = some current →
    ∃ index, sys.dispatched = index + 1 ∧ sys.vehicle.published[index]? = some current.state ∧
      current.errors ⊆ errorsOf current.state

/-- No error has been reported on an order that the vehicle has not rejected, and
none will be on account of its errors. -/
structure RejectsReported (agvId : AgvId) (sys : System) : Prop where
  books : CacheBooks sys.master
  errorBooks : ErrorBooks sys.vehicle.agv
  channels : Channels agvId sys
  orders : OrdersUnderway agvId sys.master sys.orders sys.receivedOrders
  cleared : ∀ received ∈ sys.receivedOrders, received.rejected = false →
    Cleared agvId sys.master sys.vehicle received
  dispatching : DispatchesPublished sys
  reports : ∀ notification ∈ sys.master.notifications, ∀ ref, notification.failedCache = some ref →
    sys.isRejected ref

theorem RejectsReported.initial (agvId : AgvId) (limit : Nat) :
    RejectsReported agvId (System.initial limit) where
  books := .initial
  errorBooks := .initial limit
  channels := .initial agvId limit
  orders := .initial agvId _
  cleared := by simp [System.initial]
  dispatching := by simp [DispatchesPublished, System.initial]
  reports := by simp [System.initial]

variable {sys after : System}

private theorem send_receivedOrders (agvId : AgvId) (sys : System) (event : SystemEvent) :
    (sys.send agvId event).receivedOrders = sys.receivedOrders := by
  cases event with
  | assignOrder message sent =>
      simp only [send, sendOrder]
      split
      · split <;> rfl
      · rfl
  | _ => rfl

/-- Orders are added to the channel by their assignment. -/
theorem OrdersUnderway.step
    (underway : OrdersUnderway agvId sys.master sys.orders sys.receivedOrders)
    (books : CacheBooks sys.master) {event : SystemEvent} {happened : MasterEvent}
    (atMaster : sys.masterEvent agvId event = some happened) :
    OrdersUnderway agvId (sys.master.perform happened) (sys.send agvId event).orders
      sys.receivedOrders := by
  have kept := underway.move (perform_move sys.master books happened)
  cases event with
  | assignOrder message sent =>
      obtain rfl := Option.some.inj atMaster
      simp only [System.send, sendOrder]
      split
      · split
        · exact kept
        · next unknown =>
          exact underway.send books (by simpa [isDiscarded] using unknown)
      · exact kept
  | orderPublished | initiateInstantActions | instantActionsPublished | dispatchState
  | continueDispatch => exact kept
  | receiveOrder | receiveInstantActions | vehicle => cases atMaster

theorem DispatchesPublished.step (dispatches : DispatchesPublished sys) {event : SystemEvent}
    {happened : MasterEvent} (atMaster : sys.masterEvent agvId event = some happened) :
    DispatchesPublished
      { sys.send agvId event with master := sys.master.perform happened } := by
  -- A call of the application leaves the dispatch as it is.
  have called : isCall happened → (sys.send agvId event).dispatched = sys.dispatched →
      DispatchesPublished
        { sys.send agvId event with master := sys.master.perform happened } := by
    intro call same current found
    rw [call_dispatching sys.master call] at found
    dsimp only
    rw [same, send_vehicle]
    exact dispatches current found
  have dispatched := send_dispatched agvId sys event
  cases event with
  | assignOrder | orderPublished | initiateInstantActions | instantActionsPublished =>
      obtain rfl := Option.some.inj atMaster
      exact called rfl dispatched
  | dispatchState =>
      obtain ⟨state, published, rfl⟩ := Option.map_eq_some_iff.mp atMaster
      intro current found
      obtain rfl := Option.some.inj found
      exact ⟨sys.dispatched, rfl, published, List.Subset.refl _⟩
  | continueDispatch =>
      obtain rfl := Option.some.inj atMaster
      intro later found
      cases dispatching : sys.master.dispatching with
      | none =>
          simp [perform, MasterController.continueDispatch, dispatching] at found
      | some current =>
          obtain ⟨index, last, published, listed⟩ := dispatches current dispatching
          have remaining := (continueDispatch_dispatching dispatching).symm.trans found
          cases errors : current.errors with
          | nil => simp [errors] at remaining
          | cons error errors' =>
              rw [errors] at remaining listed
              obtain rfl := Option.some.inj remaining
              exact ⟨index, last, published, fun other later => listed (List.mem_cons_of_mem _ later)⟩
  | receiveOrder | receiveInstantActions | vehicle => cases atMaster

/-- A step of the master controller. -/
theorem RejectsReported.atMaster (reported : RejectsReported agvId sys) {event : SystemEvent}
    (fits : RejectsInTime agvId sys event) {happened : MasterEvent}
    (atMaster : sys.masterEvent agvId event = some happened)
    (channels : Channels agvId
      { sys.send agvId event with master := sys.master.perform happened }) :
    RejectsReported agvId
      { sys.send agvId event with master := sys.master.perform happened } := by
  have move := perform_move sys.master reported.books happened
  have vehicle := send_vehicle agvId sys event
  have received := send_receivedOrders agvId sys event
  constructor
  · exact move.books reported.books
  · dsimp only
    rw [vehicle]
    exact reported.errorBooks
  · exact channels
  · dsimp only
    rw [received]
    exact reported.orders.step reported.books atMaster
  · dsimp only
    rw [vehicle, received]
    intro order member taken
    exact (reported.cleared order member taken).move move (reported.orders.received order member)
  · exact reported.dispatching.step atMaster
  · intro notification member ref failed
    have same : isRejected { sys.send agvId event with master := sys.master.perform happened } ref =
        sys.isRejected ref := by
      simp [isRejected, received]
    rw [same]
    rcases perform_failedCache member failed with earlier | ⟨rfl, current, dispatching, error, first,
      rejected⟩
    · exact reported.reports notification earlier ref failed
    · obtain rfl : event = .continueDispatch := masterEvent_continueDispatch atMaster
      rw [reported.channels.dispatching current dispatching] at rejected
      have answered := fits current dispatching error first ref rejected
      obtain ⟨order, listed, answers⟩ := List.any_eq_true.mp answered
      obtain ⟨rfl, before⟩ : order.ref = ref ∧ order.published < sys.dispatched := by
        simpa using answers
      obtain ⟨index, last, published, errors⟩ := reported.dispatching current dispatching
      have since : current.state ∈ sys.vehicle.published.drop order.published := by
        apply List.mem_of_getElem? (i := index - order.published)
        rw [List.getElem?_drop, Nat.add_sub_of_le (by omega)]
        exact published
      have carried : error ∈ errorsOf current.state := errors (List.mem_of_mem_head? first)
      cases rejects : order.rejected with
      | true =>
          refine List.any_eq_true.mpr ⟨order, listed, ?_⟩
          simp [rejects]
      | false =>
          have cleared := reported.cleared order listed rejects
          exact absurd rejected (cleared.published current.state since error carried)

private theorem not_rejected_of_isMisleading (other : sys.isMisleading agvId error = false)
    {received : ReceivedOrder} (member : received ∈ sys.receivedOrders)
    (taken : received.rejected = false) :
    sys.master.rejectedCache agvId error ≠ some received.ref := by
  intro found
  have isTaken : sys.isTaken received.ref := List.any_eq_true.mpr ⟨received, member, by simp [taken]⟩
  simp [isMisleading, found, isTaken] at other

/-- The errors that a step of the vehicle brings about are not about orders it
has taken before. -/
theorem RejectsReported.harmless (reported : RejectsReported agvId sys) {event : SystemEvent}
    (fits : RejectsInTime agvId sys event) {happened : Event}
    (atVehicle : sys.vehicleEvent event = some happened) {received : ReceivedOrder}
    (member : received ∈ sys.receivedOrders) (taken : received.rejected = false)
    (brings : happened.Brings sys.vehicle error) :
    sys.master.rejectedCache agvId error ≠ some received.ref := by
  rcases brings with none | supplied
  · rw [rejectedCache_of_none none]
    exact nofun
  · cases event with
    | receiveOrder adapter =>
        obtain ⟨entry, first, rfl⟩ := Option.map_eq_some_iff.mp atVehicle
        rcases (fits entry first).1 error supplied with rejects | other
        · have underway := reported.orders
          cases orders : sys.orders with
          | nil => simp [orders] at first
          | cons head rest =>
              rw [orders] at first underway
              obtain rfl := Option.some.inj first
              exact underway.rejectedCache_ne rejects member
        · exact not_rejected_of_isMisleading other member taken
    | receiveInstantActions adapter =>
        obtain ⟨⟨number, message⟩, -, rfl⟩ := Option.map_eq_some_iff.mp atVehicle
        obtain ⟨content, violation⟩ := message
        cases violation <;> simp [instantActionsEvent, Event.suppliedErrors] at supplied
    | vehicle own =>
        simp only [vehicleEvent] at atVehicle
        split at atVehicle
        · cases atVehicle
        · obtain rfl := Option.some.inj atVehicle
          exact not_rejected_of_isMisleading (fits error supplied) member taken
    | assignOrder | orderPublished | initiateInstantActions | instantActionsPublished
    | dispatchState | continueDispatch => cases atVehicle

/-- A step of the vehicle. -/
theorem RejectsReported.atVehicle (reported : RejectsReported agvId sys) {event : SystemEvent}
    (fits : RejectsInTime agvId sys event) {happened : Event}
    (atVehicle : sys.vehicleEvent event = some happened)
    (enabled : sys.vehicle.enabled happened)
    (channels : Channels agvId
      { sys.receive (sys.vehicle.perform happened) event with
        vehicle := sys.vehicle.perform happened }) :
    RejectsReported agvId
      { sys.receive (sys.vehicle.perform happened) event with
        vehicle := sys.vehicle.perform happened } := by
  have running := not_isHalted_of_enabled enabled
  have move := sys.vehicle.perform_errorsMove happened
  have master := receive_master sys (sys.vehicle.perform happened) event
  have cleared : ∀ received ∈ sys.receivedOrders, received.rejected = false →
      Cleared agvId sys.master (sys.vehicle.perform happened) received := by
    intro received member taken
    apply (reported.cleared received member taken).publish running move
    exact fun error => reported.harmless fits atVehicle member taken
  have dispatches : DispatchesPublished
      { sys.receive (sys.vehicle.perform happened) event with
        vehicle := sys.vehicle.perform happened } := by
    intro current found
    dsimp only at found ⊢
    rw [master] at found
    rw [receive_dispatched]
    obtain ⟨index, last, published, errors⟩ := reported.dispatching current found
    obtain ⟨states, appended, -⟩ := move.published
    refine ⟨index, last, ?_, errors⟩
    rw [appended, List.getElem?_append_left (List.getElem?_eq_some_iff.mp published).1]
    exact published
  have errorBooks := reported.errorBooks.move move
  cases event with
  | receiveOrder adapter =>
      obtain ⟨entry, first, rfl⟩ := Option.map_eq_some_iff.mp atVehicle
      have underway := reported.orders
      cases orders : sys.orders with
      | nil => simp [orders] at first
      | cons head rest =>
          have keeps := (fits entry first).2
          rw [orders] at first underway
          obtain rfl := Option.some.inj first
          simp only [System.receive, orders] at channels dispatches ⊢
          constructor
          · exact reported.books
          · exact errorBooks
          · exact channels
          · exact underway.receive _ _
          · intro received member taken
            cases List.mem_append.mp member with
            | inl earlier => exact cleared received earlier taken
            | inr new =>
                obtain rfl := List.mem_singleton.mp new
                dsimp only at taken ⊢
                rw [taken]
                exact Cleared.receive underway reported.errorBooks keeps taken
          · exact dispatches
          · intro notification member ref failed
            have rejected := reported.reports notification member ref failed
            simp [isRejected] at rejected ⊢
            exact .inl rejected
  | receiveInstantActions adapter =>
      cases pending : sys.instantActions with
      | nil => simp [vehicleEvent, pending] at atVehicle
      | cons message rest =>
          simp only [System.receive, pending] at channels dispatches ⊢
          exact ⟨reported.books, errorBooks, channels, reported.orders, cleared, dispatches,
            reported.reports⟩
  | vehicle own =>
      exact ⟨reported.books, errorBooks, channels, reported.orders, cleared, dispatches,
        reported.reports⟩
  | assignOrder | orderPublished | initiateInstantActions | instantActionsPublished
  | dispatchState | continueDispatch => cases atVehicle

theorem RejectsReported.step (reported : RejectsReported agvId sys) {event : SystemEvent}
    (fits : RejectsInTime agvId sys event) (stepped : sys.step agvId event = some after) :
    RejectsReported agvId after := by
  have channels := (step_moves reported.channels stepped).1
  rcases step_cases stepped with ⟨happened, atMaster, -, rfl⟩ | ⟨happened, atVehicle, enabled, rfl⟩
  · exact reported.atMaster fits atMaster channels
  · exact reported.atVehicle fits atVehicle enabled channels

/-- In every state of a run that rejects in time, an error has been reported on the
end of an order only if the vehicle has rejected the message of this order. -/
theorem no_stale_rejection {limit : Nat} {events : List SystemEvent}
    (run : SystemRun (RejectsInTime agvId) agvId limit events sys) :
    ∀ ref error byCancelation active,
      .orderProcessed ref (some error) byCancelation active ∈ sys.master.notifications →
        sys.isRejected ref := by
  have reported : RejectsReported agvId sys :=
    run.invariant _ (.initial agvId limit) fun _ reported fits stepped => reported.step fits stepped
  intro ref error byCancelation active member
  exact reported.reports _ member ref rfl

/-! ## A corrected order -/

/-- An order is rejected on account of an action, which is reported. -/
def untilRejectionReported : List SystemEvent :=
  [.assignOrder { content := driveOrder "order" [] [] [liftAction] } true, .receiveOrder cannotLift,
    .dispatchState, .continueDispatch, .continueDispatch]

/-- The order is assigned again without the action, under the same ids. -/
def assignCorrected : SystemEvent :=
  .assignOrder { content := driveOrder "order" [] [] [] } true

/-- An error has been reported on the order. -/
def hasFailed (sys : System) (ref : Nat) : Bool :=
  sys.master.notifications.any (·.failedCache = some ref)

/-- A State is published between the assignment of the corrected order and its
receipt. The order is reported as rejected and is accepted. -/
theorem not_no_stale_rejection :
    ∃ sys, SystemRun (fun _ _ => True) MasterController.vehicle 5
        (untilRejectionReported ++ [assignCorrected, .vehicle .publishTimer, .dispatchState,
          .continueDispatch, .continueDispatch, .receiveOrder {}]) sys ∧
      sys.hasFailed 0 ∧ sys.isRejected 0 ∧ sys.hasFailed 1 ∧ sys.isTaken 1 ∧
      sys.vehicle.agv.currentState.orderId = "order" := by
  obtain ⟨sys, run, passed⟩ := SystemRun.exists_of_execute (fun _ _ => True)
    MasterController.vehicle 5
    (untilRejectionReported ++ [assignCorrected, .vehicle .publishTimer, .dispatchState,
      .continueDispatch, .continueDispatch, .receiveOrder {}])
    (fun sys => sys.hasFailed 0 && sys.isRejected 0 && sys.hasFailed 1 && sys.isTaken 1 &&
      sys.vehicle.agv.currentState.orderId = "order")
    (by decide)
  simp only [Bool.and_eq_true, decide_eq_true_eq] at passed
  obtain ⟨⟨⟨⟨failed, rejected⟩, failed'⟩, taken⟩, orderId⟩ := passed
  exact ⟨sys, run, failed, rejected, failed', taken, orderId⟩

/-- The corrected order is received before another State is published. -/
theorem no_stale_rejection_of_received :
    ∃ sys, SystemRun (RejectsInTime MasterController.vehicle) MasterController.vehicle 5
        (untilRejectionReported ++ [assignCorrected, .receiveOrder {}, .dispatchState,
          .continueDispatch, .dispatchState, .continueDispatch]) sys ∧
      sys.hasFailed 0 ∧ sys.isTaken 1 ∧
      ∀ ref error byCancelation active,
        .orderProcessed ref (some error) byCancelation active ∈ sys.master.notifications →
          sys.isRejected ref := by
  obtain ⟨sys, run, passed⟩ := SystemRun.exists_of_execute
    (RejectsInTime MasterController.vehicle) MasterController.vehicle 5
    (untilRejectionReported ++ [assignCorrected, .receiveOrder {}, .dispatchState,
      .continueDispatch, .dispatchState, .continueDispatch])
    (fun sys => sys.hasFailed 0 && sys.isTaken 1)
    (by decide)
  simp only [Bool.and_eq_true] at passed
  exact ⟨sys, run, passed.1, passed.2, no_stale_rejection run⟩

end System

end Vda5050
