import Vda5050.AgvController.Publications

/-!
# Errors of instant actions expire

An error that is counted as one of an instant action stays in the state until it has
been published a fixed number of times, and then leaves it, as long as the adapter
supplies no errors meanwhile and every publication that completes contains all the
errors counted by then.
-/

set_option autoImplicit false

namespace Vda5050

open Library AgvController

/-! ## Counts and deliveries -/

/-- Every entry of the book tells how often its error has been delivered, less often
than the limit, and is found in the state. Errors that have been recorded once have
been delivered less often if and only if they have an entry. -/
structure ErrorBook.Tracks (book : ErrorBook) (limit : Nat) (deliveries : Nat → Nat)
    (recorded : List Nat) : Prop where
  sameLimit : book.limit = limit
  counted : ∀ entry ∈ book.counted, entry.2 = deliveries entry.1 ∧ entry.2 < limit ∧
    ∃ error ∈ book.errors, error.ref = entry.1
  alive : ∀ ref ∈ recorded, deliveries ref < limit → ref ∈ book.counted.map (·.1)
  gone : ∀ ref ∈ recorded, limit ≤ deliveries ref → ∀ error ∈ book.errors, error.ref ≠ ref
  known : ∀ ref ∈ recorded, ref < book.nextRef
  errors : ∀ error ∈ book.errors, error.ref < book.nextRef
  published : ∀ state ∈ book.published, ∀ error ∈ state.errors, error.ref < book.nextRef
  undelivered : ∀ ref, book.nextRef ≤ ref → deliveries ref = 0

namespace ErrorBook

variable {book : ErrorBook}

/-- The errors that remain have not been published often enough. -/
private theorem mem_complete_errors {error : StateError} :
    error ∈ book.complete.errors ↔ error ∈ book.errors ∧
      ∀ entry ∈ book.counted, entry.1 = error.ref → entry.2 + 1 < book.limit := by
  have present : error ∈ book.errors → ∀ entry : Nat × Nat, entry.1 = error.ref →
      book.isReported entry := fun included entry same =>
    List.any_eq_true.mpr ⟨error, included, decide_eq_true same.symm⟩
  constructor
  · intro member
    obtain ⟨included, stays⟩ := List.mem_filter.mp member
    refine ⟨included, fun entry known same => ?_⟩
    by_contra reached
    have isRemoved : entry ∈ book.counted.filter fun entry =>
        book.isReported entry && (Config.countPublication book.limit entry.2).isNone :=
      List.mem_filter.mpr ⟨known, by
        simp [present included entry same,
          Config.countPublication_isNone.mpr (Nat.le_of_not_lt reached)]⟩
    simp only [Bool.not_eq_true', List.any_eq_false, decide_eq_true_eq] at stays
    exact stays entry isRemoved same
  · rintro ⟨included, stays⟩
    refine List.mem_filter.mpr ⟨included, ?_⟩
    simp only [Bool.not_eq_true', List.any_eq_false, decide_eq_true_eq]
    intro entry isRemoved same
    obtain ⟨known, isRemoved⟩ := List.mem_filter.mp isRemoved
    have reached := Config.countPublication_isNone.mp (Bool.and_eq_true_iff.mp isRemoved).2
    exact absurd (stays entry known same) (Nat.not_lt.mpr reached)

/-- The remaining entries if all counted errors are in the state. -/
private theorem mem_complete_counted (reported : ∀ entry ∈ book.counted, book.isReported entry)
    {entry : Nat × Nat} :
    entry ∈ book.complete.counted ↔
      ∃ original ∈ book.counted, entry = (original.1, original.2 + 1) ∧
        original.2 + 1 < book.limit := by
  simp only [complete, List.mem_filterMap]
  refine exists_congr fun original => and_congr_right fun known => ?_
  rw [if_pos (reported original known), Option.map_eq_some_iff]
  constructor
  · rintro ⟨count, counted, rfl⟩
    obtain ⟨less, rfl⟩ := Config.countPublication_eq_some.mp counted
    exact ⟨rfl, less⟩
  · rintro ⟨rfl, less⟩
    exact ⟨_, Config.countPublication_eq_some.mpr ⟨less, rfl⟩, rfl⟩

end ErrorBook

namespace ErrorBook.Tracks

variable {book after : ErrorBook} {limit : Nat} {deliveries : Nat → Nat} {recorded : List Nat}

/-- The errors are replaced, those counted by themselves and the others by old or new ones. -/
theorem replace (tracks : book.Tracks limit deliveries recorded) {errors : List StateError}
    {nextRef : Nat} (later : book.nextRef ≤ nextRef)
    (kept : ∀ error ∈ book.errors, error.ref ∈ book.counted.map (·.1) → error ∈ errors)
    (replaced : ∀ error ∈ errors, error ∈ book.errors ∨
      book.nextRef ≤ error.ref ∧ error.ref < nextRef) :
    ({ book with errors, nextRef } : ErrorBook).Tracks limit deliveries recorded where
  sameLimit := tracks.sameLimit
  counted entry member := by
    obtain ⟨count, less, error, included, same⟩ := tracks.counted entry member
    exact ⟨count, less, error,
      kept error included (same ▸ List.mem_map_of_mem member), same⟩
  alive := tracks.alive
  gone ref member delivered error included := by
    rcases replaced error included with old | ⟨new, -⟩
    · exact tracks.gone ref member delivered error old
    · exact Nat.ne_of_gt (Nat.lt_of_lt_of_le (tracks.known ref member) new)
  known ref member := Nat.lt_of_lt_of_le (tracks.known ref member) later
  errors error included := by
    rcases replaced error included with old | ⟨-, before⟩
    · exact Nat.lt_of_lt_of_le (tracks.errors error old) later
    · exact before
  published state member error included :=
    Nat.lt_of_lt_of_le (tracks.published state member error included) later
  undelivered ref above := tracks.undelivered ref (later.trans above)

theorem add (tracks : book.Tracks limit deliveries recorded) (error : Error) :
    (book.add error).Tracks limit deliveries recorded := by
  refine tracks.replace (Nat.le_succ _) (fun _ old _ => List.mem_append_left _ old) ?_
  intro candidate member
  rcases List.mem_append.mp member with old | added
  · exact .inl old
  · obtain rfl := List.mem_singleton.mp added
    exact .inr ⟨Nat.le_refl _, Nat.lt_succ_self _⟩

/-- The new error has not been delivered yet. -/
theorem count (tracks : book.Tracks limit deliveries recorded) (positive : 0 < limit)
    (error : Error) : (book.apply (.count error)).Tracks limit deliveries recorded := by
  have added := tracks.add error
  refine { added with counted := ?_, alive := ?_ }
  · intro entry member
    rcases mem_setEntry member with rfl | old
    · exact ⟨(tracks.undelivered _ (Nat.le_refl _)).symm, positive, _,
        List.mem_append_right _ (List.mem_singleton_self _), rfl⟩
    · exact added.counted entry old
  · intro ref member delivered
    exact mem_keys_setEntry.mpr (.inr (tracks.alive ref member delivered))

/-- Supplied errors are new objects. -/
theorem supply (tracks : book.Tracks limit deliveries recorded) (none : book.counted = [])
    (errors : List Error) : (book.apply (.supply errors)).Tracks limit deliveries recorded := by
  refine tracks.replace (Nat.le_add_right _ _) (fun _ _ member => by simp [none] at member) ?_
  intro candidate member
  obtain ⟨⟨error, index⟩, indexed, rfl⟩ := List.mem_map.mp member
  obtain ⟨-, bound, -⟩ := List.mem_zipIdx indexed
  exact .inr ⟨Nat.le_add_right _ _, by simpa using bound⟩

/-- The acceptance of an order keeps all counted errors. -/
theorem accept (tracks : book.Tracks limit deliveries recorded) (keepsActionErrors : Bool) :
    (book.apply (.accept keepsActionErrors)).Tracks limit deliveries recorded := by
  refine tracks.replace (Nat.le_refl _) (fun error included counted => ?_) fun _ member =>
    .inl (List.mem_filter.mp member).1
  obtain ⟨entry, known, same⟩ := List.mem_map.mp counted
  have isCounted : book.isCounted error :=
    List.any_eq_true.mpr ⟨entry, known, decide_eq_true same⟩
  exact List.mem_filter.mpr ⟨included, by simp [isCounted]⟩

/-- Every change but the completion of a publication. -/
theorem step {allowed : ErrorChange → Prop} (tracks : book.Tracks limit deliveries recorded)
    (positive : 0 < limit) (supplies : ∀ errors, allowed (.supply errors) → book.counted = [])
    (completes : ¬ allowed .complete) (step : ErrorBook.Step allowed book after) :
    after.Tracks limit deliveries recorded := by
  cases step with
  | skip later =>
      exact tracks.replace later (fun _ included _ => included) fun _ => .inl
  | publish same =>
      refine { tracks with published := fun state member error included => ?_ }
      rcases List.mem_append.mp member with old | new
      · exact tracks.published state old error included
      · obtain rfl := List.mem_singleton.mp new
        exact tracks.errors error (same ▸ included)
  | @change change allows =>
      cases change with
      | add error => exact tracks.add error
      | count error => exact tracks.count positive error
      | supply errors => exact tracks.supply (supplies errors allows) errors
      | accept keepsActionErrors => exact tracks.accept keepsActionErrors
      | complete => exact absurd allows completes

/-- Errors that have been counted now are recorded. -/
theorem record (tracks : book.Tracks limit deliveries recorded) :
    book.Tracks limit deliveries (recorded ∪ book.counted.map (·.1)) := by
  refine { tracks with alive := ?_, gone := ?_, known := ?_ }
  · intro ref member delivered
    rcases List.mem_union_iff.mp member with old | new
    · exact tracks.alive ref old delivered
    · exact new
  · intro ref member delivered
    rcases List.mem_union_iff.mp member with old | new
    · exact tracks.gone ref old delivered
    · obtain ⟨entry, known, rfl⟩ := List.mem_map.mp new
      obtain ⟨count, less, -⟩ := tracks.counted entry known
      omega
  · intro ref member
    rcases List.mem_union_iff.mp member with old | new
    · exact tracks.known ref old
    · obtain ⟨entry, known, rfl⟩ := List.mem_map.mp new
      obtain ⟨-, -, error, included, same⟩ := tracks.counted entry known
      exact same ▸ tracks.errors error included

/-- A publication that contains all counted errors has completed. -/
theorem complete (tracks : book.Tracks limit deliveries recorded) {delivers : Nat → Bool}
    (contains : ∀ entry ∈ book.counted, delivers entry.1)
    (old : ∀ ref, delivers ref → ref < book.nextRef) :
    book.complete.Tracks limit (fun ref => deliveries ref + (delivers ref).toNat) recorded := by
  have reported : ∀ entry ∈ book.counted, book.isReported entry := fun entry member => by
    obtain ⟨-, -, error, included, same⟩ := tracks.counted entry member
    exact List.any_eq_true.mpr ⟨error, included, decide_eq_true same⟩
  have counts : ∀ entry ∈ book.counted,
      deliveries entry.1 + (delivers entry.1).toNat = entry.2 + 1 := fun entry member => by
    rw [(tracks.counted entry member).1, contains entry member]
    rfl
  constructor
  case sameLimit => exact tracks.sameLimit
  case counted =>
    intro entry member
    obtain ⟨original, known, rfl, less⟩ := (mem_complete_counted reported).mp member
    obtain ⟨-, -, error, included, same⟩ := tracks.counted original known
    rw [tracks.sameLimit] at less
    refine ⟨(counts original known).symm, less, error, mem_complete_errors.mpr ⟨included, ?_⟩, same⟩
    -- every other entry of the error has the same count
    intro other otherKnown equal
    have otherCount := counts other otherKnown
    rw [equal, same, counts original known] at otherCount
    rw [tracks.sameLimit]
    omega
  case alive =>
    intro ref member delivered
    obtain ⟨entry, known, rfl⟩ := List.mem_map.mp (tracks.alive ref member (by omega))
    have count := counts entry known
    refine List.mem_map.mpr ⟨_, (mem_complete_counted reported).mpr ⟨entry, known, rfl, ?_⟩, rfl⟩
    rw [tracks.sameLimit]
    omega
  case gone =>
    intro ref member delivered error included equal
    obtain ⟨present, others⟩ := mem_complete_errors.mp included
    by_cases before : deliveries ref < limit
    · obtain ⟨entry, known, rfl⟩ := List.mem_map.mp (tracks.alive ref member before)
      have count := counts entry known
      have less := others entry known equal.symm
      rw [tracks.sameLimit] at less
      omega
    · exact tracks.gone ref member (by omega) error present equal
  case known => exact tracks.known
  case errors => exact fun error member => tracks.errors error (List.mem_filter.mp member).1
  case published => exact tracks.published
  case undelivered =>
    intro ref above
    have undelivered : delivers ref = false := by
      rw [← Bool.not_eq_true]
      intro delivered
      exact absurd (old ref delivered) (Nat.not_lt.mpr above)
    simp [tracks.undelivered ref above, undelivered]

end ErrorBook.Tracks

/-! ## Every run -/

namespace Publications

variable (p : Publications)

/-- How many of the states published successfully contain an error. -/
def deliveries (ref : Nat) : Nat :=
  p.delivered.countP fun state => state.errors.any (·.ref = ref)

/-- The error is in the current state. -/
def hasError (ref : Nat) : Bool := p.config.agv.currentState.errors.any (·.ref = ref)

/-- The errors recorded for instant actions are in the state and counted until they have
been delivered often enough, and neither of both afterwards. -/
def ErrorsExpire (limit : Nat) : Prop :=
  (∀ ref ∈ p.recorded,
    (p.deliveries ref < limit → p.hasError ref ∧ ref ∈ p.config.agv.erroredPublishCountKeys) ∧
    (limit ≤ p.deliveries ref →
      ¬ p.hasError ref ∧ ref ∉ p.config.agv.erroredPublishCountKeys)) ∧
  ∀ ref ∈ p.config.agv.erroredPublishCountKeys, p.hasError ref

/-- While errors are counted the adapter does not supply any, and each state that is
published successfully contains all those counted when its publication completes. -/
def KeepsErrors (p : Publications) : PublicationEvent → Prop
  | .controller event =>
      p.config.agv.erroredPublishCountKeys ≠ [] → event.suppliedErrorList p.config = none
  | .completed index succeeded =>
      succeeded → ∀ state ∈ p.pending[index]?, ∀ ref ∈ p.config.agv.erroredPublishCountKeys,
        state.errors.any (·.ref = ref)

instance (p : Publications) : DecidablePred p.KeepsErrors := fun
  | .controller event =>
      inferInstanceAs (Decidable (p.config.agv.erroredPublishCountKeys ≠ [] →
        event.suppliedErrorList p.config = none))
  | .completed index succeeded =>
      inferInstanceAs (Decidable (succeeded → ∀ state ∈ p.pending[index]?,
        ∀ ref ∈ p.config.agv.erroredPublishCountKeys, state.errors.any (·.ref = ref)))

/-- The counts of the controller are right, and it publishes nothing else. -/
structure TracksErrors (limit : Nat) (p : Publications) : Prop where
  tracks : p.config.errorBook.Tracks limit p.deliveries p.recorded
  recorded : p.config.agv.erroredPublishCountKeys ⊆ p.recorded
  pending : p.PendingPublished

private theorem TracksErrors.expire {p : Publications} {limit : Nat}
    (tracking : TracksErrors limit p) : p.ErrorsExpire limit := by
  obtain ⟨tracks, -, -⟩ := tracking
  have reported : ∀ ref ∈ p.config.agv.erroredPublishCountKeys, p.hasError ref := by
    intro ref member
    obtain ⟨entry, known, rfl⟩ := List.mem_map.mp member
    obtain ⟨-, -, error, included, same⟩ := tracks.counted entry known
    exact List.any_eq_true.mpr ⟨error, included, decide_eq_true same⟩
  refine ⟨fun ref member => ⟨fun delivered => ?_, fun delivered => ⟨?_, fun counted => ?_⟩⟩, reported⟩
  · have counted := tracks.alive ref member delivered
    exact ⟨reported ref counted, counted⟩
  · intro present
    obtain ⟨error, included, same⟩ := List.any_eq_true.mp present
    exact tracks.gone ref member delivered error included (of_decide_eq_true same)
  · obtain ⟨entry, known, rfl⟩ := List.mem_map.mp counted
    obtain ⟨count, less, -⟩ := tracks.counted entry known
    omega

theorem TracksErrors.initial (limit : Nat) : TracksErrors (max 1 limit) (initial limit) where
  tracks := by constructor <;> simp [Publications.initial, Config.initial, AgvController.initial,
    Config.errorBook, deliveries]
  recorded := by simp [Publications.initial, Config.initial, AgvController.initial,
    AgvController.erroredPublishCountKeys]
  pending := by simp [Publications.initial, PendingPublished]

/-- Errors are counted on messages, which supply none. -/
private theorem suppliedErrorList_of_count {c : Config} {event : Event} {error : Error}
    (changes : event.Changes c (.count error)) : event.suppliedErrorList c = none := by
  cases changes <;> rfl

theorem TracksErrors.controller {limit : Nat} (tracking : TracksErrors limit p)
    (positive : 0 < limit) {event : Event} (other : ∀ succeeded, event ≠ .published succeeded)
    (keeps : p.KeepsErrors (.controller event)) :
    (p.config.perform event).errorBook.Tracks limit p.deliveries p.recorded := by
  refine (ErrorSteps.invariant (fun book => book.Tracks limit p.deliveries p.recorded ∧
    (event.suppliedErrorList p.config ≠ none → book.counted = []))
    (p.config.perform_errorSteps event) ⟨tracking.tracks, fun supplies => ?_⟩ ?_).1
  · by_contra counted
    exact supplies (keeps fun none => counted (List.map_eq_nil_iff.mp none))
  · rintro book after ⟨tracks, supplies⟩ step
    refine ⟨tracks.step positive (fun errors changes => supplies ?_) (fun changes => ?_) step,
      fun supplied => ?_⟩
    · cases changes with
      | supplied supplied => simp [supplied]
    · cases changes
      exact other true rfl
    · have none := supplies supplied
      cases step with
      | skip | publish => exact none
      | @change change changes =>
          cases change with
          | count error => exact absurd (suppliedErrorList_of_count changes) supplied
          | complete => simp [ErrorBook.apply, ErrorBook.complete, none]
          | _ => exact none

private theorem deliveries_complete (next : Config) (index : Nat) (state : State) :
    (p.complete next index state true).deliveries = fun ref =>
      p.deliveries ref + (state.errors.any (·.ref = ref)).toNat := by
  funext ref
  simp only [deliveries, complete, if_true, List.countP_append, List.countP_singleton]
  cases state.errors.any (·.ref = ref) <;> rfl

theorem TracksErrors.step {after : Publications} {limit : Nat} (tracking : TracksErrors limit p)
    (positive : 0 < limit) {event : PublicationEvent} (keeps : p.KeepsErrors event)
    (stepped : p.step event = some after) : TracksErrors limit after := by
  refine ⟨?_, ?_, tracking.pending.step stepped⟩
  · cases event with
    | controller event =>
        obtain ⟨other, next, performed, rfl⟩ := step_controller stepped
        obtain ⟨-, rfl⟩ := Config.step_eq_some.mp performed
        exact (tracking.controller p positive other keeps).record
    | completed index succeeded =>
        obtain ⟨state, next, found, performed, rfl⟩ := step_completed stepped
        obtain ⟨-, rfl⟩ := Config.step_eq_some.mp performed
        cases succeeded with
        | false => exact tracking.tracks
        | true =>
            rw [deliveries_complete]
            refine tracking.tracks.complete (fun entry member => ?_) fun ref delivered => ?_
            · exact keeps rfl state found entry.1 (List.mem_map_of_mem member)
            · obtain ⟨error, included, same⟩ := List.any_eq_true.mp delivered
              have published := tracking.pending (List.mem_of_getElem? found)
              exact of_decide_eq_true same ▸ tracking.tracks.published state published error included
  · cases event with
    | controller event =>
        obtain ⟨-, next, -, rfl⟩ := step_controller stepped
        exact fun ref member => List.mem_union_iff.mpr (.inr member)
    | completed index succeeded =>
        obtain ⟨state, next, -, performed, rfl⟩ := step_completed stepped
        obtain ⟨-, rfl⟩ := Config.step_eq_some.mp performed
        intro ref member
        have unchanged : (p.config.perform (.published succeeded)).agv.nextErrorRef =
            p.config.agv.nextErrorRef := by cases succeeded <;> rfl
        rcases (p.config.perform_errorsCreated (.published succeeded)).counted ref member with
          old | ⟨after, before⟩
        · exact tracking.recorded old
        · omega

/-- Every error recorded for an instant action is in the state and counted until it has
been published successfully as often as configured, and in neither from then on, in
every run in which no errors are supplied while some are counted and every completed
publication contains all those counted. -/
theorem errorsExpire {limit : Nat} {events : List PublicationEvent} {p : Publications}
    (run : Run step KeepsErrors (initial limit) events p) : p.ErrorsExpire (max 1 limit) := by
  refine (run.invariant (TracksErrors (max 1 limit)) (.initial limit) ?_).expire
  intro _ p event after _ tracking keeps stepped
  exact tracking.step p (by omega) keeps stepped

/-- A payload that is not a valid message, and the completions of two publications. -/
def invalidPayload : List PublicationEvent :=
  [.controller (.invalidInstantActions (.obj []) "must be object"), .completed 0 true,
    .controller .publishTimer, .completed 0 true]

theorem errorsExpire_invalidPayload :
    ∃ p, Run step KeepsErrors (initial 2) invalidPayload p ∧
      (p.recorded = [0] ∧ p.deliveries 0 = 2) ∧ p.ErrorsExpire (max 1 2) := by
  have passed : (execute step KeepsErrors (initial 2) invalidPayload).any
      (fun p => decide (p.recorded = [0] ∧ p.deliveries 0 = 2)) = true := by decide
  obtain ⟨p, run, found⟩ := exists_run_of_execute passed
  exact ⟨p, run, of_decide_eq_true found, errorsExpire run⟩

/-! ## Errors that do not expire -/

/-- Publications complete before the next message, callback or timer. -/
def CompletesFirst (p : Publications) : PublicationEvent → Prop
  | .controller .proceed | .completed .. => True
  | .controller _ => p.pending = []

instance (p : Publications) : DecidablePred p.CompletesFirst := fun
  | .controller .proceed | .completed .. => isTrue trivial
  | .controller (.order ..) | .controller (.invalidOrder ..) | .controller (.instantActions ..)
  | .controller (.invalidInstantActions ..) | .controller (.updateActionStatus ..)
  | .controller (.edgeTraversed _) | .controller (.stopped _) | .controller (.drivingToNextNode _)
  | .controller (.updatePartialState ..) | .controller (.updateErrors ..)
  | .controller .publishTimer | .controller (.published _) | .controller (.connection _) =>
      inferInstanceAs (Decidable (p.pending = []))

/-- An error of the vehicle that does not concern any action. -/
def vehicleError : Error where
  errorType := "bumper"
  errorLevel := .warning
  errorReferences := some []

/-- The adapter adds an error of its own while one of an instant action is counted. -/
def errorAddedMeanwhile : List PublicationEvent :=
  [.controller (.invalidInstantActions (.obj []) "must be object"), .completed 0 true,
    .controller (.updateErrors vehicleError .add true), .completed 0 true]

/-- The error of the instant action has been replaced by a copy, and its entry remains. -/
theorem not_errorsExpire_errorAddedMeanwhile :
    ¬ ∀ (limit : Nat) (events : List PublicationEvent) (p : Publications),
      Run step CompletesFirst (initial limit) events p → p.ErrorsExpire (max 1 limit) := by
  intro expires
  have passed : (execute step CompletesFirst (initial 5) errorAddedMeanwhile).any
      (fun p => decide (p.config.agv.erroredPublishCountKeys = [0] ∧ ¬ p.hasError 0)) = true := by
    decide
  obtain ⟨p, run, found⟩ := exists_run_of_execute passed
  obtain ⟨counted, lost⟩ := of_decide_eq_true found
  exact lost ((expires 5 _ p run).2 0 (by simp [counted]))

end Publications

end Vda5050
