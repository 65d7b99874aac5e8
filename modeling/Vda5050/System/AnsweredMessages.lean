import Vda5050.AgvController.ErrorCounts
import Vda5050.System.ErrorAttribution
import Vda5050.System.Underway

/-!
# Messages answered one after the other

An application may wait for the answer to a message of instant actions before it
initiates the next one. A validation error that is new in a State is then one of
the message initiated last.
-/

set_option autoImplicit false

namespace Vda5050

namespace System

open MasterController

/-- Instant actions are initiated when the message before has been published and
received, and all States have been dispatched and show the validation errors of the
vehicle. Publications succeed, and no State is dispatched as long as one is pending.
The adapter reports no validation errors of its own. -/
def Answered (sys : System) : SystemEvent → Prop
  | .initiateInstantActions _ _ =>
      sys.master.pendingInstantActions = [] ∧ sys.instantActions = [] ∧ sys.underway = [] ∧
        sys.vehicle.validationErrorCount ≤
          sys.master.currentInstantActionsValidationErrors.length
  | .instantActionsPublished _ succeeded => succeeded = true
  | .continueDispatch => sys.master.pendingInstantActions = []
  | .vehicle event =>
      ∀ error ∈ event.suppliedErrors sys.vehicle, isInstantActionsValidationError error = false
  | _ => True

instance (sys : System) (event : SystemEvent) : Decidable (Answered sys event) :=
  match event with
  | .initiateInstantActions _ _ => inferInstanceAs (Decidable (_ ∧ _ ∧ _ ∧ _))
  | .instantActionsPublished _ succeeded => inferInstanceAs (Decidable (succeeded = true))
  | .continueDispatch => inferInstanceAs (Decidable (sys.master.pendingInstantActions = []))
  | .vehicle _ => inferInstanceAs (Decidable (∀ _ ∈ _, _))
  | .assignOrder .. | .orderPublished .. | .dispatchState | .receiveOrder _
  | .receiveInstantActions _ => isTrue trivial

/-- The number of the message initiated last. -/
def latestRef (m : MasterController) : Nat :=
  if m.pendingInstantActions = [] then m.currentInstantActionsRef.getD 0
  else m.nextInstantActionsRef

/-- How often the message initiated last has been rejected. -/
def lastRejections (sys : System) : Nat :=
  sys.rejectedInstantActions.countP (· + 1 = sys.initiated)

/-- From the errors known to those in the States underway and to those of the
vehicle, the number of validation errors does not rise by more than the
rejections of the last message. -/
def Counted (sys : System) : Prop :=
  (sys.master.currentInstantActionsValidationErrors.length ::
    (reportedCounts sys.underway ++ [sys.vehicle.validationErrorCount])).IsChain
      fun count later => later ≤ count + sys.lastRejections

/-- At most one message has not been answered. The entries in the cache with the
last number are those of the message initiated last, and no error is known under a
number to come. -/
structure InTurn (agvId : AgvId) (sys : System) : Prop where
  pending : sys.master.pendingInstantActions = [] ∨
    ∃ pending, sys.master.pendingInstantActions = [pending] ∧
      pending.instantActionsRef = sys.master.nextInstantActionsRef
  unused : sys.master.currentInstantActionsRef = none →
    sys.master.pendingInstantActions = [] → sys.initiated = 0
  entries : ∀ entry ∈ sys.master.cachedInstantActions agvId,
    entry.2.instantActionsRef ≤ latestRef sys.master ∧
      (entry.2.instantActionsRef = latestRef sys.master →
        entry.2.eventHandler + 1 = sys.initiated)
  known : ∀ known ∈ sys.master.currentInstantActionsValidationErrors,
    known.1 < (sys.master.nextInstantActionsRef : Int)
  channel : ∀ entry ∈ sys.instantActions, entry.1 + 1 = sys.initiated
  once : sys.instantActions.length + sys.lastRejections ≤ 1
  rejected : ∀ number ∈ sys.rejectedInstantActions, number < sys.initiated
  counted : sys.Counted

variable {agvId : AgvId} {sys next : System}

theorem InTurn.initial (agvId : AgvId) (limit : Nat) : InTurn agvId (System.initial limit) where
  pending := .inl rfl
  unused _ _ := rfl
  entries := by simp [System.initial, cachedInstantActions]
  known := by simp [System.initial]
  channel := by simp [System.initial]
  once := by simp [System.initial, lastRejections]
  rejected := by simp [System.initial]
  counted := by
    have none : (System.initial limit).underway = [] := rfl
    unfold Counted
    rw [none]
    exact List.isChain_pair.mpr (Nat.zero_le _)

/-! ## Attribution -/

/-- The validation errors of a State, counted as the master controller does. -/
private theorem length_filter_errorsOf (state : State) :
    ((errorsOf state).filter isInstantActionsValidationError).length =
      validationErrorCount state.errors := by
  rw [← List.countP_eq_length_filter, errorsOf, List.countP_map]
  rfl

/-- The last number is the one that the new errors of a State are given. -/
private theorem InTurn.eq_latestRef (turn : InTurn agvId sys)
    (published : sys.master.pendingInstantActions = []) {count : Nat} (single : count ≤ 1)
    {entry : String × InstantActionStateCache}
    (cached : entry ∈ sys.master.cachedInstantActions agvId)
    (among : IsAmongLast sys.master count entry.2.instantActionsRef) :
    entry.2.eventHandler + 1 = sys.initiated := by
  obtain ⟨currentRef, current, notAfter, notBefore⟩ := among
  have latest : latestRef sys.master = currentRef := by
    have current : sys.master.currentInstantActionsRef = some currentRef := by simpa using current
    simp [latestRef, published, current]
  obtain ⟨-, last⟩ := turn.entries entry cached
  apply last
  rw [latest]
  omega

/-- New validation errors are attributed to the message initiated last, and only
if it has been rejected. -/
private theorem InTurn.attributes (turn : InTurn agvId sys) {event : SystemEvent}
    (waits : Answered sys event) : AttributesToRejected agvId sys event := by
  cases event with
  | initiateInstantActions message sent =>
      intro known listed
      exact Int.ne_of_lt (turn.known known listed)
  | continueDispatch =>
      intro current dispatching finished entry cached among
      have dispatching : sys.master.dispatching = some current := by simpa using dispatching
      have counted := turn.counted
      have first : sys.underway = current.state ::
          sys.vehicle.published.drop sys.dispatched := by
        simp [underway, dispatching]
      unfold Counted at counted
      rw [first] at counted
      have rise : validationErrorCount current.state.errors ≤
          sys.master.currentInstantActionsValidationErrors.length + sys.lastRejections :=
        (List.isChain_cons_cons.mp counted).1
      have bound : newErrorCount sys.master (errorsOf current.state) ≤ sys.lastRejections := by
        unfold newErrorCount
        rw [length_filter_errorsOf]
        omega
      have once := turn.once
      have last := turn.eq_latestRef waits (by omega) cached among
      obtain ⟨currentRef, -, notAfter, notBefore⟩ := among
      have rejected : 0 < sys.lastRejections := by omega
      obtain ⟨number, member, same⟩ := List.countP_pos_iff.mp rejected
      have same : number + 1 = sys.initiated := by simpa using same
      obtain rfl : number = entry.2.eventHandler := by omega
      exact member
  | _ => trivial

/-! ## Steps -/

/-- Instant actions of the cache are removed only, and no number is given. -/
theorem InTurn.evolve (turn : InTurn agvId sys)
    (refs : next.master.currentInstantActionsRef = sys.master.currentInstantActionsRef)
    (pending : next.master.pendingInstantActions = sys.master.pendingInstantActions)
    (evolved : Evolved (sys.master.cachedInstantActions agvId)
      (next.master.cachedInstantActions agvId))
    (known : ∀ known ∈ next.master.currentInstantActionsValidationErrors,
      known.1 < (sys.master.nextInstantActionsRef : Int))
    (channel : next.instantActions = sys.instantActions)
    (initiated : next.initiated = sys.initiated)
    (rejected : next.rejectedInstantActions = sys.rejectedInstantActions)
    (counted : next.Counted) : InTurn agvId next := by
  have nextRef : next.master.nextInstantActionsRef = sys.master.nextInstantActionsRef := by
    unfold nextInstantActionsRef
    rw [refs]
  have latest : latestRef next.master = latestRef sys.master := by
    unfold latestRef
    rw [refs, pending, nextRef]
  constructor
  · rw [pending, nextRef]
    exact turn.pending
  · rw [refs, pending, initiated]
    exact turn.unused
  · intro entry member
    obtain ⟨earlier, cached, last, rfl⟩ := evolved.origin entry member
    rw [latest, initiated]
    exact turn.entries earlier cached
  · rw [nextRef]
    exact known
  · rw [channel, initiated]
    exact turn.channel
  · unfold lastRejections
    rw [channel, rejected, initiated]
    exact turn.once
  · rw [rejected, initiated]
    exact turn.rejected
  · exact counted

/-- Neither the errors nor their numbers change. -/
theorem Counted.of_same (counted : sys.Counted)
    (known : next.master.currentInstantActionsValidationErrors =
      sys.master.currentInstantActionsValidationErrors)
    (underway : next.underway = sys.underway) (vehicle : next.vehicle = sys.vehicle)
    (rejections : next.lastRejections = sys.lastRejections) : next.Counted := by
  unfold Counted
  rw [known, underway, vehicle, rejections]
  exact counted

/-- What is appended to a list whose last number is left out. -/
private theorem isChain_append_falls {before later : List Nat} {last first slack rise : Nat}
    (chain : (before ++ [last]).IsChain fun count later => later ≤ count + slack)
    (rises : first ≤ last + rise) (falls : (first :: later).IsChain (· ≥ ·)) :
    (before ++ later).IsChain fun count later => later ≤ count + (slack + rise) := by
  obtain ⟨earlier, -, joint⟩ := List.isChain_append.mp chain
  have weaker : before.IsChain fun count later => later ≤ count + (slack + rise) :=
    earlier.imp fun count later bound => by omega
  have falling : later.IsChain fun count later => later ≤ count + (slack + rise) :=
    falls.tail.imp fun count later bound => by omega
  refine List.isChain_append.mpr ⟨weaker, falling, fun count ends other starts => ?_⟩
  have bound := joint count ends last rfl
  cases later with
  | nil => cases starts
  | cons head later =>
      obtain rfl := Option.some.inj starts
      have lower := (List.isChain_cons_cons.mp falls).1
      omega

/-- The vehicle may add as many validation errors as it rejects messages, and
reports them. -/
private theorem Counted.answer (counted : sys.Counted) {middle : Config} {rise : Nat}
    (published : middle.published = sys.vehicle.published)
    (rises : middle.validationErrorCount ≤ sys.vehicle.validationErrorCount + rise)
    (falls : middle.Falls next.vehicle) {states : List State}
    (appended : next.vehicle.published = sys.vehicle.published ++ states)
    (underway : next.underway = sys.underway ++ states) (master : next.master = sys.master)
    (rejections : next.lastRejections = sys.lastRejections + rise) : next.Counted := by
  obtain ⟨later, reports, chain⟩ := falls
  rw [published, appended] at reports
  obtain rfl := List.append_cancel_left reports
  unfold Counted at counted ⊢
  rw [← List.cons_append] at counted
  have extended := isChain_append_falls counted rises chain
  have counts : reportedCounts (sys.underway ++ states) =
      reportedCounts sys.underway ++ reportedCounts states := List.map_append
  rw [underway, counts, master, rejections, List.append_assoc]
  exact extended

/-- The vehicle has received a message, or has made a step of its own. -/
private theorem InTurn.answer (turn : InTurn agvId sys) (master : next.master = sys.master)
    (initiated : next.initiated = sys.initiated)
    (channel : ∀ entry ∈ next.instantActions, entry ∈ sys.instantActions)
    (rejected : ∀ number ∈ next.rejectedInstantActions, number < sys.initiated)
    (once : next.instantActions.length + next.lastRejections ≤ 1) (counted : next.Counted) :
    InTurn agvId next where
  pending := master ▸ turn.pending
  unused := master ▸ initiated ▸ turn.unused
  entries := master ▸ initiated ▸ turn.entries
  known := master ▸ turn.known
  channel entry member := initiated ▸ turn.channel entry (channel entry member)
  once := once
  rejected := initiated ▸ rejected
  counted := counted

private theorem receive_initiated (sys : System) (vehicle : Config) (event : SystemEvent) :
    (sys.receive vehicle event).initiated = sys.initiated := by
  cases event with
  | receiveOrder => simp only [receive]; split <;> rfl
  | receiveInstantActions => simp only [receive]; split <;> rfl
  | _ => rfl

/-- Only a message of instant actions is taken from their channel. -/
private theorem receive_instantActions (sys : System) (vehicle : Config) (event : SystemEvent)
    (other : ∀ adapter, event ≠ .receiveInstantActions adapter) :
    (sys.receive vehicle event).instantActions = sys.instantActions ∧
      (sys.receive vehicle event).rejectedInstantActions = sys.rejectedInstantActions := by
  cases event with
  | receiveOrder => simp only [receive]; split <;> exact ⟨rfl, rfl⟩
  | receiveInstantActions adapter => exact absurd rfl (other adapter)
  | _ => exact ⟨rfl, rfl⟩

/-- Events other than those of the adapter supply no errors. -/
private theorem suppliedErrorList_of_message (c : Config) {event : Event}
    (message : isMessage event) :
    event.suppliedErrorList c = none := by
  cases event <;> first | rfl | cases message

/-- A message is received, or something else happens at the vehicle. -/
theorem InTurn.vehicle (turn : InTurn agvId sys) {event : SystemEvent}
    (waits : Answered sys event) {happened : Event}
    (atVehicle : sys.vehicleEvent event = some happened)
    (performed : next = { sys.receive (sys.vehicle.perform happened) event with
      vehicle := sys.vehicle.perform happened }) {states : List State}
    (appended : next.vehicle.published = sys.vehicle.published ++ states)
    (underway : next.underway = sys.underway ++ states) : InTurn agvId next := by
  have master : next.master = sys.master := by
    rw [performed]
    exact receive_master ..
  have initiated : next.initiated = sys.initiated := by
    rw [performed]
    exact receive_initiated ..
  have vehicle : next.vehicle = sys.vehicle.perform happened := by rw [performed]
  have once := turn.once
  -- The steps by which no message is rejected.
  have unrejected : (∀ payload message, happened ≠ .invalidInstantActions payload message) →
      ((happened.suppliedErrorList sys.vehicle).isSome = true →
        ∀ error ∈ happened.suppliedErrors sys.vehicle,
          isInstantActionsValidationError error = false) →
      next.instantActions.Sublist sys.instantActions →
      next.rejectedInstantActions = sys.rejectedInstantActions → InTurn agvId next := by
    intro valid others channel rejected
    have rejections : next.lastRejections = sys.lastRejections + 0 := by
      unfold lastRejections
      rw [rejected, initiated]
      rfl
    have falls : sys.vehicle.Falls next.vehicle := by
      rw [vehicle]
      exact sys.vehicle.perform_falls valid others
    have fewer := channel.length_le
    exact turn.answer master initiated (fun _ member => channel.subset member)
      (rejected ▸ turn.rejected) (by omega)
      (turn.counted.answer rfl (Nat.le_refl _) falls appended underway master rejections)
  cases event with
  | receiveOrder adapter =>
      obtain ⟨entry, -, rfl⟩ := Option.map_eq_some_iff.mp atVehicle
      obtain ⟨channel, rejected⟩ := receive_instantActions sys
        (sys.vehicle.perform (orderEvent adapter entry.2)) (.receiveOrder adapter) (by simp)
      have order : isMessage (orderEvent adapter entry.2) ∧ ∀ payload message,
          orderEvent adapter entry.2 ≠ .invalidInstantActions payload message := by
        unfold orderEvent
        split <;> simp [isMessage]
      apply unrejected order.2
      · rw [suppliedErrorList_of_message _ order.1]
        intro supplied
        cases supplied
      · rw [performed]
        exact channel ▸ .refl _
      · rw [performed]
        exact rejected
  | vehicle own =>
      unfold vehicleEvent at atVehicle
      dsimp only at atVehicle
      split at atVehicle
      · cases atVehicle
      · next other =>
        obtain rfl := Option.some.inj atVehicle
        apply unrejected
        · rintro payload message rfl
          exact other rfl
        · exact fun _ => waits
        · rw [performed]
          exact .refl _
        · rw [performed]
          rfl
  | receiveInstantActions adapter =>
      obtain ⟨⟨number, message⟩, head, rfl⟩ := Option.map_eq_some_iff.mp atVehicle
      obtain ⟨rest, channel⟩ := List.head?_eq_some_iff.mp head
      have remaining : next.instantActions = rest := by
        rw [performed]
        simp only [receive, channel]
      have rejected : next.rejectedInstantActions =
          if message.violation.isSome then sys.rejectedInstantActions ++ [number]
          else sys.rejectedInstantActions := by
        rw [performed]
        simp only [receive, channel]
      cases violation : message.violation with
      | none =>
          have valid : instantActionsEvent adapter message =
              .instantActions message.content adapter := by
            simp only [instantActionsEvent, violation]
          apply unrejected
          · simp [valid]
          · simp [valid, Event.suppliedErrorList]
          · rw [remaining, channel]
            exact List.sublist_cons_self _ _
          · rw [rejected, violation]
            rfl
      | some invalid =>
          have last : number + 1 = sys.initiated :=
            turn.channel (number, message) (by simp [channel])
          have rejected : next.rejectedInstantActions = sys.rejectedInstantActions ++ [number] := by
            rw [rejected, violation]
            rfl
          have rejections : next.lastRejections = sys.lastRejections + 1 := by
            unfold lastRejections
            rw [rejected, initiated, List.countP_append]
            simp [last]
          obtain ⟨middle, published, rises, falls⟩ :=
            sys.vehicle.processInvalidInstantActions_falls invalid.1 invalid.2
          have processed : sys.vehicle.perform (instantActionsEvent adapter message) =
              sys.vehicle.processInvalidInstantActions invalid.1 invalid.2 := by
            simp only [instantActionsEvent, violation]
            rfl
          rw [← processed, ← vehicle] at falls
          apply turn.answer master initiated
          · intro entry member
            rw [channel]
            exact List.mem_cons_of_mem _ (remaining ▸ member)
          · intro other member
            rw [rejected] at member
            cases List.mem_append.mp member with
            | inl old => exact turn.rejected other old
            | inr new =>
                obtain rfl := List.mem_singleton.mp new
                omega
          · rw [channel, List.length_cons] at once
            rw [remaining, rejections]
            omega
          · exact turn.counted.answer published rises falls appended underway master rejections
  | assignOrder | orderPublished | initiateInstantActions | instantActionsPublished
  | dispatchState | continueDispatch => cases atVehicle

private theorem initiateInstantActions_rest (m : MasterController) (agvId : AgvId)
    (actions : List Action) (eventHandler : Nat) :
    ∃ pending, (m.initiateInstantActions agvId actions eventHandler).pendingInstantActions =
        m.pendingInstantActions ++ [pending] ∧
      pending.instantActionsRef = m.nextInstantActionsRef ∧
      (m.initiateInstantActions agvId actions eventHandler).currentInstantActionsRef =
        m.currentInstantActionsRef ∧
      (m.initiateInstantActions agvId actions eventHandler).currentInstantActionsValidationErrors =
        m.currentInstantActionsValidationErrors ∧
      (m.initiateInstantActions agvId actions eventHandler).dispatching = m.dispatching := by
  unfold MasterController.initiateInstantActions
  cases m.currentInstantActions.lookup agvId with
  | none => exact ⟨_, rfl, rfl, rfl, rfl, rfl⟩
  | some ref => exact ⟨_, rfl, rfl, rfl, rfl, rfl⟩

/-- Nothing is underway when a message is initiated. -/
theorem InTurn.initiateInstantActions (turn : InTurn agvId sys) (owned : Owned sys.master)
    {message : Message InstantActions} {sent : Bool}
    (waits : Answered sys (.initiateInstantActions message sent))
    (performed : next = { sys.send agvId (.initiateInstantActions message sent) with
      master := sys.master.initiateInstantActions agvId message.content.actions
        sys.initiated }) : InTurn agvId next := by
  obtain ⟨published, received, dispatched, shown⟩ := waits
  obtain ⟨pending, appended, numbered, refs, errors, dispatching⟩ :=
    initiateInstantActions_rest sys.master agvId message.content.actions sys.initiated
  rw [published, List.nil_append] at appended
  have cached := cachedInstantActions_initiate owned agvId message.content.actions sys.initiated
  have nextRef : (sys.master.initiateInstantActions agvId message.content.actions
      sys.initiated).nextInstantActionsRef = sys.master.nextInstantActionsRef := by
    unfold nextInstantActionsRef
    rw [refs]
  have latest : latestRef (sys.master.initiateInstantActions agvId message.content.actions
      sys.initiated) = sys.master.nextInstantActionsRef := by
    rw [latestRef, appended, nextRef]
    exact if_neg (List.cons_ne_nil _ _)
  have before : latestRef sys.master < sys.master.nextInstantActionsRef := by
    rw [latestRef, published, if_pos rfl, nextInstantActionsRef]
    cases sys.master.currentInstantActionsRef with
    | none => exact Nat.one_pos
    | some currentRef => exact Nat.lt_succ_self currentRef
  have underway : next.underway = [] := by
    rw [← dispatched, performed]
    simp only [System.underway, send, dispatching]
  have none : next.lastRejections = 0 := by
    rw [performed]
    refine List.countP_eq_zero.mpr fun number member last => ?_
    have earlier := turn.rejected number member
    have last : number + 1 = sys.initiated + 1 := by simpa [send] using last
    omega
  constructor
  · rw [performed]
    exact .inr ⟨pending, appended, numbered.trans nextRef.symm⟩
  · rw [performed]
    intro _ empty
    rw [appended] at empty
    cases empty
  · rw [performed]
    intro entry member
    rw [cached] at member
    rw [latest]
    rcases mem_putActions _ member with old | ⟨action, -, rfl⟩
    · have earlier := (turn.entries entry old).1
      constructor
      · omega
      · intro same
        omega
    · exact ⟨Nat.le_refl _, fun _ => rfl⟩
  · rw [performed]
    rw [errors, nextRef]
    exact turn.known
  · rw [performed]
    intro entry member
    cases sent with
    | true =>
        simp only [send, received, if_true, List.nil_append, List.mem_singleton] at member
        rw [member]
        rfl
    | false =>
        simp [send, received] at member
  · rw [none, performed]
    cases sent with
    | true => simp [send, received]
    | false => simp [send, received]
  · rw [performed]
    intro number member
    exact Nat.lt_succ_of_lt (turn.rejected number member)
  · unfold Counted
    rw [underway, performed]
    refine List.isChain_pair.mpr (Nat.le_add_right_of_le ?_)
    rw [errors]
    exact shown

/-- The only message whose publication is underway is published. -/
theorem InTurn.instantActionsPublished (turn : InTurn agvId sys)
    {pending : PendingInstantActions} (listed : pending ∈ sys.master.pendingInstantActions)
    (performed : next =
      { sys with master := sys.master.instantActionsPublished pending true }) :
    InTurn agvId next := by
  obtain ⟨only, numbered⟩ : sys.master.pendingInstantActions = [pending] ∧
      pending.instantActionsRef = sys.master.nextInstantActionsRef := by
    rcases turn.pending with none | ⟨other, only, numbered⟩
    · rw [none] at listed
      cases listed
    · rw [only] at listed
      obtain rfl := List.mem_singleton.mp listed
      exact ⟨only, numbered⟩
  have published : sys.master.instantActionsPublished pending true =
      { sys.master with
        pendingInstantActions := []
        currentInstantActionsRef := some sys.master.nextInstantActionsRef } := by
    simp [MasterController.instantActionsPublished, only, numbered]
  have latest : latestRef sys.master = sys.master.nextInstantActionsRef := by
    rw [latestRef, only]
    exact if_neg (List.cons_ne_nil _ _)
  rw [published] at performed
  subst performed
  constructor
  · exact .inl rfl
  · intro none
    cases none
  · have entries := turn.entries
    rw [latest] at entries
    exact entries
  · intro known listed
    exact Int.lt_trans (turn.known known listed) (Int.ofNat_lt.mpr (Nat.lt_succ_self _))
  · exact turn.channel
  · exact turn.once
  · exact turn.rejected
  · exact turn.counted

/-! ## The dispatch of a State -/

/-- All validation errors of a State are known afterwards. -/
private theorem length_updatedErrors {m : MasterController} {currentRef : Nat}
    (numbered : m.currentInstantActionsRef = some currentRef) (state : State) :
    (m.updateInstantActionsValidationError
      (errorsOf state)).currentInstantActionsValidationErrors.length =
      validationErrorCount state.errors := by
  rw [← length_filter_errorsOf]
  unfold updateInstantActionsValidationError
  rw [numbered]
  dsimp only
  split
  · simp only [List.length_append, List.length_map, List.length_zipIdx, List.length_drop]
    omega
  · rw [List.length_drop]
    omega

/-- New errors get no number that is to come. -/
private theorem updatedErrors_lt {m : MasterController} {errors : List Error}
    (before : ∀ known ∈ m.currentInstantActionsValidationErrors,
      known.1 < (m.nextInstantActionsRef : Int)) :
    ∀ known ∈
      (m.updateInstantActionsValidationError errors).currentInstantActionsValidationErrors,
      known.1 < (m.nextInstantActionsRef : Int) := by
  intro known listed
  rcases mem_updatedErrors listed with old | new
  · exact before known old
  · by_cases negative : known.1 < 0
    · exact Int.lt_of_lt_of_le negative (Int.natCast_nonneg _)
    · obtain ⟨number, equal⟩ := Int.eq_ofNat_of_zero_le (Int.not_lt.mp negative)
      obtain ⟨currentRef, numbered, notAfter, -⟩ := new number equal
      have numbered : m.currentInstantActionsRef = some currentRef := by simpa using numbered
      rw [equal, nextInstantActionsRef, numbered]
      exact Int.ofNat_lt.mpr (Nat.lt_succ_of_le notAfter)

/-- The errors of a State are known when it is dispatched. -/
private theorem InTurn.counted_of_completed (turn : InTurn agvId sys)
    (published : sys.master.pendingInstantActions = []) {state : State}
    (underway : sys.underway = state :: next.underway)
    (known : next.master.currentInstantActionsValidationErrors =
      (sys.master.updateInstantActionsValidationError
        (errorsOf state)).currentInstantActionsValidationErrors)
    (vehicle : next.vehicle = sys.vehicle)
    (rejections : next.lastRejections = sys.lastRejections) : next.Counted := by
  have counted := turn.counted
  unfold Counted at counted ⊢
  rw [underway] at counted
  rw [known, vehicle, rejections]
  have chain : (sys.master.currentInstantActionsValidationErrors.length ::
      validationErrorCount state.errors :: (reportedCounts next.underway ++
        [sys.vehicle.validationErrorCount])).IsChain
      fun count later => later ≤ count + sys.lastRejections := counted
  obtain ⟨first, rest⟩ := List.isChain_cons_cons.mp chain
  cases numbered : sys.master.currentInstantActionsRef with
  | some currentRef =>
      rw [length_updatedErrors numbered]
      exact rest
  | none =>
      -- No message has been published, so that none has been rejected.
      have unsent := turn.unused numbered published
      have none : sys.lastRejections = 0 := by
        refine List.countP_eq_zero.mpr fun number member _ => ?_
        have earlier := turn.rejected number member
        omega
      have same : sys.master.updateInstantActionsValidationError (errorsOf state) = sys.master := by
        unfold updateInstantActionsValidationError
        rw [numbered]
      rw [same]
      refine List.isChain_cons.mpr ⟨fun count starts => ?_, rest.tail⟩
      have second := (List.isChain_cons.mp rest).1 count starts
      omega

/-- The instant actions are looked up in a State. -/
theorem InTurn.completed (turn : InTurn agvId sys) (actionBooks : ActionBooks sys.master agvId)
    (books : CacheBooks sys.master) (waits : Answered sys .continueDispatch)
    {current : Dispatching} (dispatching : sys.master.dispatching = some current)
    (finished : current.errors = []) (owner : current.agvId = agvId)
    (alive : next.master.crashed = false)
    (performed : next = { sys with master := sys.master.continueDispatch })
    (underway : sys.underway = current.state :: next.underway) : InTurn agvId next := by
  subst owner
  have order := orderDispatched_same sys.master current
  rcases continueDispatch_cases dispatching with ⟨error, errors, remaining, -⟩ | ⟨-, ends⟩
  · cases finished.symm.trans remaining
  · rcases ends with ⟨crashed, lost⟩ | continued
    · rw [performed, crashed, lost] at alive
      cases alive
    · obtain ⟨ref, dispatched⟩ :=
        (actionBooks.orderDispatched books current).dispatchInstantActions current.state
      have rest := dispatchInstantActions_rest (sys.master.orderDispatched current) current.agvId
        current.state
      have master : next.master =
          (sys.master.orderDispatched current).dispatchInstantActions current.agvId
            current.state := by
        rw [performed, continued]
      have set := updateInstantActionsValidationError_set (sys.master.orderDispatched current)
        (errorsOf current.state)
      have refs : next.master.currentInstantActionsRef = sys.master.currentInstantActionsRef := by
        rw [master, rest.currentInstantActionsRef, set]
        exact order.currentInstantActionsRef
      have pending : next.master.pendingInstantActions = sys.master.pendingInstantActions := by
        rw [master, rest.pendingInstantActions, set]
        exact order.pendingInstantActions
      have known : next.master.currentInstantActionsValidationErrors =
          (sys.master.updateInstantActionsValidationError
            (errorsOf current.state)).currentInstantActionsValidationErrors := by
        rw [master, rest.errors]
        apply updateInstantActionsValidationError_congr
        · exact order.currentInstantActionsRef
        · exact order.errors
      have evolved := dispatched.evolved
      rw [set, ← master] at evolved
      have cached : (sys.master.orderDispatched current).cachedInstantActions current.agvId =
          sys.master.cachedInstantActions current.agvId := order.cachedInstantActions _
      apply turn.evolve refs pending (cached ▸ evolved)
      · rw [known]
        exact updatedErrors_lt turn.known
      · rw [performed]
      · rw [performed]
      · rw [performed]
      · exact turn.counted_of_completed waits underway known (by rw [performed])
          (by rw [performed]; rfl)

/-! ## Runs -/

/-- Only the initiation of instant actions concerns their channel. -/
private theorem send_instantActions (agvId : AgvId) (sys : System) (event : SystemEvent)
    (other : ∀ message sent, event ≠ .initiateInstantActions message sent) :
    (sys.send agvId event).instantActions = sys.instantActions ∧
      (sys.send agvId event).initiated = sys.initiated := by
  cases event with
  | initiateInstantActions message sent => exact absurd rfl (other message sent)
  | assignOrder message sent =>
      simp only [send, sendOrder]
      split
      · split <;> exact ⟨rfl, rfl⟩
      · exact ⟨rfl, rfl⟩
  | _ => exact ⟨rfl, rfl⟩

private theorem masterEvent_eq_none {event : SystemEvent} {happened : Event}
    (atVehicle : sys.vehicleEvent event = some happened) : sys.masterEvent agvId event = none := by
  cases event with
  | receiveOrder | receiveInstantActions | vehicle => rfl
  | assignOrder | orderPublished | initiateInstantActions | instantActionsPublished
  | dispatchState | continueDispatch => cases atVehicle

/-- A step that does not concern instant actions. -/
theorem InTurn.kept (turn : InTurn agvId sys) {event : SystemEvent} {happened : MasterEvent}
    (other : ∀ message sent, event ≠ .initiateInstantActions message sent)
    (performed : next = { sys.send agvId event with master := sys.master.perform happened })
    {dispatching : Option Dispatching}
    (same : SameActions { sys.master with dispatching := dispatching }
      (sys.master.perform happened))
    (underway : next.underway = sys.underway) : InTurn agvId next := by
  obtain ⟨channel, initiated⟩ := send_instantActions agvId sys event other
  have rejected := send_rejectedInstantActions agvId sys event
  have rejections : next.lastRejections = sys.lastRejections := by
    rw [performed]
    unfold lastRejections
    dsimp only
    rw [rejected, initiated]
  have vehicle : next.vehicle = sys.vehicle := by
    rw [performed]
    exact send_vehicle agvId sys event
  have counted : next.Counted :=
    turn.counted.of_same (by rw [performed]; exact same.errors) underway vehicle rejections
  rw [performed] at counted ⊢
  have cached : (sys.master.perform happened).cachedInstantActions agvId =
      sys.master.cachedInstantActions agvId := same.cachedInstantActions agvId
  have known := turn.known
  rw [← same.errors] at known
  exact turn.evolve same.currentInstantActionsRef same.pendingInstantActions
    (cached ▸ .refl _) known channel initiated rejected counted

/-- A step of an application that waits for answers. -/
theorem InTurn.step (turn : InTurn agvId sys) (actionBooks : ActionBooks sys.master agvId)
    (books : CacheBooks sys.master) (channels : Channels agvId sys) {event : SystemEvent}
    (waits : Answered sys event) (stepped : sys.step agvId event = some next) :
    next.master.crashed = true ∨ InTurn agvId next := by
  obtain ⟨-, moves⟩ := step_moves channels stepped
  rcases step_cases stepped with ⟨happened, atMaster, enabled, performed⟩ |
    ⟨happened, atVehicle, -, performed⟩
  · cases moves with
    | vehicle other states atVehicle =>
        rw [masterEvent_eq_none atVehicle] at atMaster
        cases atMaster
    | completed current same _ dispatching finished underway =>
        subst same
        obtain rfl := Option.some.inj atMaster
        cases alive : next.master.crashed with
        | true => exact .inl rfl
        | false =>
            exact .inr (turn.completed actionBooks books waits dispatching finished
              (channels.dispatching current dispatching) alive performed underway)
    | master other atMaster' _ unfinished underway =>
        right
        cases event with
        | assignOrder message sent =>
            obtain rfl := Option.some.inj atMaster
            exact turn.kept (by simp) performed (assignOrder_same _ _ _ _) underway
        | orderPublished ref succeeded =>
            obtain rfl := Option.some.inj atMaster
            exact turn.kept (by simp) performed (orderPublished_same _ _ _) underway
        | initiateInstantActions message sent =>
            obtain rfl := Option.some.inj atMaster
            exact turn.initiateInstantActions actionBooks.owned waits performed
        | instantActionsPublished pending succeeded =>
            obtain rfl := Option.some.inj atMaster
            obtain rfl : succeeded = true := waits
            have listed : pending ∈ sys.master.pendingInstantActions := by
              simp only [MasterController.enabled, Bool.and_eq_true, List.contains_iff_mem]
                at enabled
              exact enabled.2.2
            exact turn.instantActionsPublished listed performed
        | dispatchState =>
            obtain ⟨state, -, rfl⟩ := Option.map_eq_some_iff.mp atMaster
            exact turn.kept (by simp) performed (.refl _) underway
        | continueDispatch =>
            obtain rfl := Option.some.inj atMaster
            obtain rfl := Option.some.inj atMaster'
            cases dispatching : sys.master.dispatching with
            | none => simp [MasterController.enabled, dispatching] at enabled
            | some current =>
                rcases continueDispatch_cases dispatching with
                  ⟨error, errors, -, looking⟩ | ⟨finished, -⟩
                · exact turn.kept (by simp) performed looking underway
                · exact absurd finished (unfinished rfl current dispatching)
        | receiveOrder | receiveInstantActions | vehicle => cases atMaster
  · right
    cases moves with
    | vehicle other states atVehicle' _ published underway =>
        exact turn.vehicle waits atVehicle performed published underway
    | completed current same =>
        subst same
        cases atVehicle
    | master other atMaster =>
        rw [masterEvent_eq_none atVehicle] at atMaster
        cases atMaster

/-- No step of the master controller is possible any more, and none is undone. -/
private theorem crashed_step (crashed : sys.master.crashed = true) {event : SystemEvent}
    (stepped : sys.step agvId event = some next) :
    next.master.crashed = true ∧ AttributesToRejected agvId sys event := by
  rcases step_cases stepped with ⟨happened, -, enabled, -⟩ | ⟨happened, atVehicle, -, rfl⟩
  · simp [MasterController.enabled, crashed] at enabled
  · constructor
    · rw [receive_master]
      exact crashed
    · cases event with
      | initiateInstantActions | continueDispatch => cases atVehicle
      | _ => trivial

/-- If each message is answered before the next one is initiated, all validation
errors are attributed to rejected messages. -/
theorem attributesToRejected_of_answered {limit : Nat} {events : List SystemEvent}
    (run : SystemRun Answered agvId limit events sys) :
    SystemRun (AttributesToRejected agvId) agvId limit events sys := by
  have both : SystemRun (AttributesToRejected agvId) agvId limit events sys ∧
      (sys.master.crashed = true ∨ InTurn agvId sys) := by
    induction run with
    | start => exact ⟨.start, .inr (.initial agvId limit)⟩
    | advance earlier waits stepped ih =>
        obtain ⟨attributing, crashed | turn⟩ := ih
        · obtain ⟨still, attributes⟩ := crashed_step crashed stepped
          exact ⟨attributing.advance attributes stepped, .inl still⟩
        · obtain ⟨_, masterRun⟩ := SystemRun.masterRun earlier
          have actionBooks := (ErrorsAttributed.of_run attributing).books
          exact ⟨attributing.advance (turn.attributes waits) stepped,
            turn.step actionBooks (CacheBooks.of_run masterRun) (SystemRun.channels earlier)
              waits stepped⟩
  exact both.1

end System

end Vda5050
