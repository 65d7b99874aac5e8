import Vda5050.AgvController.ErrorBook
import Vda5050.MasterController.Attribution

/-!
# Errors in the state of the AGV controller

Where the errors of the current state and of published states come from, and
which of them are counted as errors of instant actions.
-/

set_option autoImplicit false

namespace Vda5050

open AgvController

/-- The error objects that are removed after they have been published often enough. -/
def AgvController.erroredPublishCountKeys (agv : AgvController) : List Nat :=
  agv.instantActionsErroredPublishCount.map (·.1)

/-- A new error object, which is counted only if it does not reject an order.
Some are copies of errors already in the state. -/
structure NewError (allowed : Error → Prop) (agv next : AgvController) (error : StateError) :
    Prop where
  after : agv.nextErrorRef ≤ error.ref
  before : error.ref < next.nextErrorRef
  source : allowed error.error ∨ ∃ original ∈ agv.currentState.errors, original.error = error.error
  counted : error.ref ∈ next.erroredPublishCountKeys → error.ref ∈ agv.erroredPublishCountKeys ∨
    MasterController.rejectedOrder error.error = none

/-- All errors reported by the way, other than those already in the state, are
allowed ones. -/
structure ErrorsMove (allowed : Error → Prop) (c next : Config) : Prop where
  nextErrorRef : c.agv.nextErrorRef ≤ next.agv.nextErrorRef
  counted : ∀ ref ∈ next.agv.erroredPublishCountKeys, ref ∈ c.agv.erroredPublishCountKeys ∨
    c.agv.nextErrorRef ≤ ref ∧ ref < next.agv.nextErrorRef
  errors : ∀ error ∈ next.agv.currentState.errors,
    error ∈ c.agv.currentState.errors ∨ NewError allowed c.agv next.agv error
  published : ∃ states, next.published = c.published ++ states ∧
    ∀ state ∈ states, ∀ error ∈ state.errors,
      allowed error.error ∨ ∃ original ∈ c.agv.currentState.errors, original.error = error.error

namespace ErrorsMove

variable {allowed : Error → Prop} {c middle next : Config}

theorem of_same (errors : next.agv.currentState.errors = c.agv.currentState.errors)
    (counted : next.agv.instantActionsErroredPublishCount = c.agv.instantActionsErroredPublishCount)
    (nextErrorRef : c.agv.nextErrorRef ≤ next.agv.nextErrorRef)
    (published : next.published = c.published) : ErrorsMove allowed c next where
  nextErrorRef := nextErrorRef
  counted ref member := by
    unfold AgvController.erroredPublishCountKeys at member ⊢
    exact .inl (counted ▸ member)
  errors error member := .inl (errors ▸ member)
  published := ⟨[], by simp [published], by simp⟩

theorem refl (c : Config) : ErrorsMove allowed c c := of_same rfl rfl (Nat.le_refl _) rfl

theorem source (move : ErrorsMove allowed c next) {error : StateError}
    (member : error ∈ next.agv.currentState.errors) :
    allowed error.error ∨ ∃ original ∈ c.agv.currentState.errors, original.error = error.error := by
  rcases move.errors error member with old | new
  · exact .inr ⟨error, old, rfl⟩
  · exact new.source

theorem trans (first : ErrorsMove allowed c middle) (second : ErrorsMove allowed middle next) :
    ErrorsMove allowed c next where
  nextErrorRef := first.nextErrorRef.trans second.nextErrorRef
  counted ref member := by
    rcases second.counted ref member with old | ⟨after, before⟩
    · rcases first.counted ref old with old | ⟨after, before⟩
      · exact .inl old
      · exact .inr ⟨after, Nat.lt_of_lt_of_le before second.nextErrorRef⟩
    · exact .inr ⟨first.nextErrorRef.trans after, before⟩
  errors error member := by
    rcases second.errors error member with old | ⟨after, before, source, counted⟩
    · rcases first.errors error old with old | ⟨after, before, source, counted⟩
      · exact .inl old
      · refine .inr ⟨after, Nat.lt_of_lt_of_le before second.nextErrorRef, source, fun known => ?_⟩
        rcases second.counted error.ref known with known | ⟨late, -⟩
        · exact counted known
        · omega
    · refine .inr ⟨first.nextErrorRef.trans after, before, ?_, fun known => ?_⟩
      · rcases source with supplied | ⟨original, old, same⟩
        · exact .inl supplied
        · exact same ▸ first.source old
      · rcases counted known with known | harmless
        · rcases first.counted error.ref known with known | ⟨-, early⟩
          · exact .inl known
          · omega
        · exact .inr harmless
  published := by
    obtain ⟨states, published, sources⟩ := first.published
    obtain ⟨states', published', sources'⟩ := second.published
    refine ⟨states ++ states', by simp [published, published'], fun state member => ?_⟩
    rcases List.mem_append.mp member with member | member
    · exact sources state member
    · intro error reported
      rcases sources' state member error reported with supplied | ⟨original, old, same⟩
      · exact .inl supplied
      · exact same ▸ first.source old

theorem mono {allowed' : Error → Prop} (move : ErrorsMove allowed c next)
    (weaker : ∀ error, allowed error → allowed' error) : ErrorsMove allowed' c next where
  nextErrorRef := move.nextErrorRef
  counted := move.counted
  errors error member := (move.errors error member).imp_right fun new =>
    ⟨new.after, new.before, new.source.imp_left (weaker _), new.counted⟩
  published := by
    obtain ⟨states, published, sources⟩ := move.published
    exact ⟨states, published, fun state member error reported =>
      (sources state member error reported).imp_left (weaker _)⟩

/-- Errors that are already in the state need not be allowed. -/
private theorem absorb (move : ErrorsMove (fun error => allowed error ∨
      ∃ original ∈ c.agv.currentState.errors, original.error = error) c next) :
    ErrorsMove allowed c next where
  nextErrorRef := move.nextErrorRef
  counted := move.counted
  errors error member := (move.errors error member).imp_right fun new =>
    ⟨new.after, new.before, new.source.elim id .inr, new.counted⟩
  published := by
    obtain ⟨states, published, sources⟩ := move.published
    exact ⟨states, published, fun state member error reported =>
      (sources state member error reported).elim id .inr⟩

end ErrorsMove

/-! ## Steps of the book -/

/-- The errors that a change brings, other than those already in the state, are
allowed ones. -/
def ErrorChange.Brings (allowed : Error → Prop) (c : Config) : ErrorChange → Prop
  | .add error => allowed error
  | .count error => allowed error ∧ MasterController.rejectedOrder error = none
  | .supply errors => ∀ error ∈ errors, allowed error ∨
      ∃ original ∈ c.agv.currentState.errors, original.error = error
  | .accept _ | .complete => True

/-- The configuration with another book of errors. -/
def Config.withBook (c : Config) (book : ErrorBook) : Config :=
  { c with
    agv :=
      { c.agv with
        currentState := { c.agv.currentState with errors := book.errors }
        instantActionsErroredPublishCount := book.counted
        nextErrorRef := book.nextRef }
    published := book.published }

namespace ErrorsMove

variable {allowed : Error → Prop} {c next : Config}

/-- A new error object at the end of the list. -/
private theorem of_add (book : ErrorBook) {error : Error} (allows : allowed error) :
    ErrorsMove allowed (c.withBook book) (c.withBook (book.add error)) where
  nextErrorRef := Nat.le_succ _
  counted _ := .inl
  errors candidate member := by
    rcases List.mem_append.mp member with old | added
    · exact .inl old
    · obtain rfl := List.mem_singleton.mp added
      exact .inr ⟨Nat.le_refl _, Nat.lt_succ_self _, .inl allows, .inl⟩
  published := ⟨[], by simp [Config.withBook, ErrorBook.add], by simp⟩

/-- A new error object that is counted. -/
private theorem of_count (book : ErrorBook) {error : Error} (allows : allowed error)
    (other : MasterController.rejectedOrder error = none) :
    ErrorsMove allowed (c.withBook book) (c.withBook (book.apply (.count error))) where
  nextErrorRef := Nat.le_succ _
  counted ref member := by
    rcases mem_keys_setEntry.mp member with rfl | known
    · exact .inr ⟨Nat.le_refl _, Nat.lt_succ_self _⟩
    · exact .inl known
  errors candidate member := by
    rcases List.mem_append.mp member with old | added
    · exact .inl old
    · obtain rfl := List.mem_singleton.mp added
      exact .inr ⟨Nat.le_refl _, Nat.lt_succ_self _, .inl allows, fun _ => .inr other⟩
  published := ⟨[], by simp [Config.withBook, ErrorBook.apply, ErrorBook.add], by simp⟩

/-- The supplied errors are new objects, none of which is counted. -/
private theorem of_supply (book : ErrorBook) {errors : List Error}
    (allows : ∀ error ∈ errors, allowed error) :
    ErrorsMove allowed (c.withBook book) (c.withBook (book.apply (.supply errors))) where
  nextErrorRef := Nat.le_add_right _ _
  counted _ := .inl
  errors candidate member := by
    obtain ⟨⟨error, index⟩, indexed, rfl⟩ := List.mem_map.mp member
    obtain ⟨-, bound, same⟩ := List.mem_zipIdx indexed
    have included : error ∈ errors := same ▸ List.getElem_mem _
    exact .inr ⟨Nat.le_add_right _ _, by simpa [Config.withBook, ErrorBook.apply] using bound,
      .inl (allows error included), .inl⟩
  published := ⟨[], by simp [Config.withBook, ErrorBook.apply], by simp⟩

/-- Errors and counted entries are dropped only. -/
private theorem of_drop {book after : ErrorBook} (errors : after.errors ⊆ book.errors)
    (counted : after.counted.map (·.1) ⊆ book.counted.map (·.1))
    (nextRef : after.nextRef = book.nextRef) (published : after.published = book.published) :
    ErrorsMove allowed (c.withBook book) (c.withBook after) where
  nextErrorRef := Nat.le_of_eq nextRef.symm
  counted _ member := .inl (counted member)
  errors _ member := .inl (errors member)
  published := ⟨[], by simp [Config.withBook, published], by simp⟩

theorem of_step {changes : ErrorChange → Prop} {book after : ErrorBook}
    (brings : ∀ change, changes change → change.Brings allowed c)
    (step : ErrorBook.Step changes book after) :
    ErrorsMove (fun error => allowed error ∨
      ∃ original ∈ c.agv.currentState.errors, original.error = error)
      (c.withBook book) (c.withBook after) := by
  cases step with
  | skip later => exact .of_same rfl rfl later rfl
  | publish same =>
      refine { (refl (c.withBook book) : ErrorsMove _ _ _) with published := ⟨[_], rfl, ?_⟩ }
      intro state member error reported
      obtain rfl := List.mem_singleton.mp member
      rw [same] at reported
      exact .inr ⟨error, reported, rfl⟩
  | @change change allows =>
      have brought := brings change allows
      cases change with
      | add error => exact of_add book (.inl brought)
      | count error => exact of_count book (.inl brought.1) brought.2
      | supply errors => exact of_supply book brought
      | accept keeps => exact of_drop (List.filter_subset_self _) (List.Subset.refl _) rfl rfl
      | complete =>
          refine of_drop (List.filter_subset_self _) (fun ref member => ?_) rfl rfl
          obtain ⟨entry, known, rfl⟩ := List.mem_map.mp member
          obtain ⟨original, included, same⟩ := List.mem_filterMap.mp known
          refine List.mem_map.mpr ⟨original, included, ?_⟩
          split at same
          · obtain ⟨count, -, rfl⟩ := Option.map_eq_some_iff.mp same
            rfl
          · cases same
            rfl

/-- What the changes of the book bring is all that is new. -/
private theorem of_steps {changes : ErrorChange → Prop} (steps : ErrorSteps changes c next)
    (brings : ∀ change, changes change → change.Brings allowed c) : ErrorsMove allowed c next := by
  have general : ∀ {book : ErrorBook},
      Relation.ReflTransGen (ErrorBook.Step changes) c.errorBook book →
      ErrorsMove (fun error => allowed error ∨
        ∃ original ∈ c.agv.currentState.errors, original.error = error) c (c.withBook book) := by
    intro book steps
    induction steps with
    | refl => exact refl c
    | tail _ step ih => exact ih.trans (of_step brings step)
  have move := (general steps).absorb
  exact ⟨move.nextErrorRef, move.counted, fun error member => (move.errors error member).imp_right
    fun new => ⟨new.after, new.before, new.source, new.counted⟩, move.published⟩

end ErrorsMove

/-! ## Errors that reject no order -/

/-- `updateErrors` adds the given error only. -/
private theorem AgvController.mem_of_newErrors {errors updated : List StateError} {error : Error}
    {mode : UpdateMode} (changed : newErrors errors error mode = .ok (some updated))
    {candidate : StateError} (member : candidate ∈ updated) :
    candidate ∈ errors ∨ candidate.error = error := by
  unfold newErrors at changed
  generalize findErrorIndex error errors 0 = result at changed
  cases result with
  | error message => cases changed
  | ok found =>
      cases found with
      | none =>
          cases mode with
          | add =>
              cases changed
              rcases List.mem_append.mp member with old | added
              · exact .inl old
              · exact .inr (List.mem_singleton.mp added ▸ rfl)
          | remove => cases changed
      | some index =>
          cases mode with
          | add => cases changed
          | remove =>
              cases changed
              exact .inl (List.mem_of_mem_eraseIdx member)

namespace Config

/-- The error of a failed action rejects no order. -/
private theorem rejectedOrder_actionError {context : ActionContext}
    {change : ActionStatusChangeInfo}
    {error : Error} (failed : actionError context change = some error) :
    MasterController.rejectedOrder error = none := by
  unfold actionError at failed
  split at failed
  · split at failed
    · cases failed
    · obtain rfl := Option.some.inj failed
      refine MasterController.rejectedOrder_createActionError ?_ _ _
      split <;> decide
  · cases failed

private theorem rejectedOrder_checkInstantActionExecutable {agv : AgvController}
    {adapter : AdapterAnswers} {action : Action} {error : Error}
    (notExecutable : checkInstantActionExecutable agv adapter action = some error) :
    MasterController.rejectedOrder error = none := by
  unfold checkInstantActionExecutable at notExecutable
  simp only at notExecutable
  split at notExecutable
  · split at notExecutable
    · obtain rfl := Option.some.inj notExecutable
      exact MasterController.rejectedOrder_createActionError (by decide) _ _
    · split at notExecutable
      · obtain rfl := Option.some.inj notExecutable
        exact MasterController.rejectedOrder_createActionError (by decide) _ _
      · cases notExecutable
  · split at notExecutable
    · cases notExecutable
    · obtain rfl := Option.some.inj notExecutable
      exact MasterController.rejectedOrder_createActionError (by decide) _ _

end Config

/-! ## Every step -/

/-- The error by which the controller rejects an order. -/
def AgvController.OrderDecision.rejection : OrderDecision → Option Error
  | .reject error => some error
  | .discard | .accept _ => none

/-- The errors an event brings about, other than those of actions. -/
def Event.suppliedErrors (c : Config) : Event → List Error
  | .order message adapter =>
      (c.agv.decideOrder adapter (Config.allocateNodes c.received message)).rejection.toList
  | .invalidOrder payload message =>
      (createInvalidOrderError payload ("invalid order: " ++ message)).toOption.toList
  | .updateActionStatus _ change => (change.linkedState.errors.getD []).map (·.error)
  | .updatePartialState newState _ => (newState.errors.getD []).map (·.error)
  | .updateErrors error _ _ => [error]
  | _ => []

/-- Errors of actions, which reject no order, and those supplied by the event. -/
def Event.Brings (c : Config) (event : Event) (error : Error) : Prop :=
  MasterController.rejectedOrder error = none ∨ error ∈ event.suppliedErrors c

/-- Where the errors of a step come from. -/
inductive Event.Creates (c : Config) : Event → Error → Prop where
  | supplied {event : Event} {error : Error} (supplied : error ∈ event.suppliedErrors c) :
      Creates c event error
  | failedAction {event : Event} {context : ActionContext} {change : ActionStatusChangeInfo}
      {error : Error} (failed : Config.actionError context change = some error) :
      Creates c event error
  | rejectedAction {message : InstantActions} {adapter : AdapterAnswers} {agv : AgvController}
      {action : Action} {error : Error}
      (notExecutable : Config.checkInstantActionExecutable agv adapter action = some error) :
      Creates c (.instantActions message adapter) error
  | invalidInstantActions {payload : Json} {message : String} {error : Error}
      (created : createInstantActionsValidationError payload
        ("invalid instant actions: " ++ message) = .ok error) :
      Creates c (.invalidInstantActions payload message) error

theorem Event.Creates.brings {c : Config} {event : Event} {error : Error}
    (created : event.Creates c error) : event.Brings c error := by
  cases created with
  | supplied supplied => exact .inr supplied
  | failedAction failed => exact .inl (Config.rejectedOrder_actionError failed)
  | rejectedAction notExecutable =>
      exact .inl (Config.rejectedOrder_checkInstantActionExecutable notExecutable)
  | invalidInstantActions created =>
      exact .inl (MasterController.rejectedOrder_createInstantActionsValidationError created)

theorem Event.Changes.brings {c : Config} {event : Event} {change : ErrorChange}
    (changes : event.Changes c change) : change.Brings (event.Creates c) c := by
  cases changes with
  | failedAction failed => exact .failedAction failed
  | rejectedOrder decided =>
      exact .supplied (by simp [Event.suppliedErrors, decided, OrderDecision.rejection])
  | acceptedOrder => trivial
  | invalidOrder created =>
      exact .supplied (by simp [Event.suppliedErrors, created, Except.toOption])
  | rejectedAction notExecutable =>
      exact ⟨.rejectedAction notExecutable,
        Config.rejectedOrder_checkInstantActionExecutable notExecutable⟩
  | invalidInstantActions created =>
      exact ⟨.invalidInstantActions created,
        MasterController.rejectedOrder_createInstantActionsValidationError created⟩
  | @supplied event errors supplied =>
      intro error member
      obtain ⟨candidate, included, rfl⟩ := List.mem_map.mp member
      cases event with
      | updateErrors error mode reportImmediately =>
          cases changed : newErrors c.agv.currentState.errors error mode with
          | error => simp [Event.suppliedErrorList, changed] at supplied
          | ok result =>
              have changed : newErrors c.agv.currentState.errors error mode = .ok (some errors) := by
                simpa [Event.suppliedErrorList, changed] using supplied
              rcases mem_of_newErrors changed included with old | same
              · exact .inr ⟨candidate, old, rfl⟩
              · exact .inl (.supplied (by simp [Event.suppliedErrors, same]))
      | updateActionStatus context change =>
          have supplied : change.linkedState.errors = some errors := supplied
          refine .inl (.supplied ?_)
          simp only [Event.suppliedErrors, supplied, Option.getD_some]
          exact List.mem_map_of_mem included
      | updatePartialState newState reportImmediately =>
          have supplied : newState.errors = some errors := supplied
          refine .inl (.supplied ?_)
          simp only [Event.suppliedErrors, supplied, Option.getD_some]
          exact List.mem_map_of_mem included
      | _ => cases supplied
  | published => trivial

theorem Config.perform_errorsCreated (c : Config) (event : Event) :
    ErrorsMove (event.Creates c) c (c.perform event) :=
  .of_steps (perform_errorSteps c event) fun _ => Event.Changes.brings

theorem Config.perform_errorsMove (c : Config) (event : Event) :
    ErrorsMove (event.Brings c) c (c.perform event) :=
  (perform_errorsCreated c event).mono fun _ => Event.Creates.brings

end Vda5050
