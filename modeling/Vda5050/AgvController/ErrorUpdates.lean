import Mathlib.Data.List.Perm.Basic
import Vda5050.AgvController.Effects
import Vda5050.AgvController.Errors

/-!
# Errors added and removed by the adapter

Two errors are the same if they agree up to the order of their references. The
comparison made by the controller only looks for the references of one error
among those of the other, and fails on absent references.
-/

set_option autoImplicit false

namespace Vda5050

open AgvController

/-! ## Comparison of errors -/

namespace Error

/-- The errors agree in all but their references. -/
def agrees (first second : Error) : Bool :=
  first.errorDescription = second.errorDescription && first.errorLevel = second.errorLevel &&
    first.errorType = second.errorType

def references (error : Error) : List ErrorReference := error.errorReferences.getD []

/-- The errors agree up to the order of their references. -/
def IsSame (first second : Error) : Prop :=
  first.agrees second = true ∧ first.references.Perm second.references

/-- The errors agree, have as many references as each other, and those of the first
one are among those of the second one. -/
def resembles (first second : Error) : Bool :=
  first.agrees second &&
    (first.references.length = second.references.length &&
      first.references.all fun reference => second.references.contains reference)

end Error

/-- The comparison made by `_findErrorIndex`. -/
def AgvController.compareErrors (first second : Error) : Except Json.TypeError Bool :=
  if first.agrees second then
    areErrorReferencesEqual first.errorReferences second.errorReferences
  else .ok false

theorem AgvController.findErrorIndex_cons (error : Error) (candidate : StateError)
    (candidates : List StateError) (index : Nat) :
    findErrorIndex error (candidate :: candidates) index =
      (compareErrors candidate.error error).bind fun equal =>
        if equal then .ok (some index) else findErrorIndex error candidates (index + 1) := by
  rw [findErrorIndex, compareErrors, Error.agrees]
  split
  · rfl
  · rfl

namespace Error

variable {first second third : Error}

private theorem agrees_refl (error : Error) : error.agrees error = true := by simp [agrees]

private theorem agrees_trans (left : first.agrees second = true)
    (right : second.agrees third = true) :
    first.agrees third = true := by
  simp only [Error.agrees, Bool.and_eq_true, decide_eq_true_eq] at left right ⊢
  exact ⟨⟨left.1.1.trans right.1.1, left.1.2.trans right.1.2⟩, left.2.trans right.2⟩

private theorem resembles_iff : first.resembles second = true ↔
    first.agrees second = true ∧ first.references.length = second.references.length ∧
      first.references ⊆ second.references := by
  simp only [resembles, Bool.and_eq_true, decide_eq_true_eq, List.all_eq_true,
    List.contains_iff_mem]
  rfl

private theorem IsSame.resembles (same : first.IsSame second) : first.resembles second = true :=
  resembles_iff.mpr ⟨same.1, same.2.length_eq, same.2.subset⟩

theorem resembles_refl (error : Error) : error.resembles error = true :=
  resembles_iff.mpr ⟨agrees_refl error, rfl, fun _ member => member⟩

private theorem resembles_trans (left : first.resembles second = true)
    (right : second.resembles third = true) : first.resembles third = true := by
  obtain ⟨agrees, length, subset⟩ := resembles_iff.mp left
  obtain ⟨agrees', length', subset'⟩ := resembles_iff.mp right
  exact resembles_iff.mpr
    ⟨agrees_trans agrees agrees', length.trans length', fun _ member => subset' (subset member)⟩

/-- Errors with references are compared as they resemble each other. -/
theorem compareErrors_eq (left : first.errorReferences.isSome = true)
    (right : second.errorReferences.isSome = true) :
    compareErrors first second = .ok (first.resembles second) := by
  obtain ⟨refs1, known1⟩ := Option.isSome_iff_exists.mp left
  obtain ⟨refs2, known2⟩ := Option.isSome_iff_exists.mp right
  unfold compareErrors resembles references
  cases agrees : first.agrees second with
  | false => simp
  | true => simp [known1, known2, areErrorReferencesEqual]

/-- An error without references cannot be compared with itself. -/
private theorem isSome_of_compareErrors_self {error : Error} {equal : Bool}
    (compared : compareErrors error error = .ok equal) : error.errorReferences.isSome = true := by
  rw [compareErrors, if_pos (agrees_refl error)] at compared
  cases known : error.errorReferences with
  | none =>
      rw [known] at compared
      cases compared
  | some refs => rfl

end Error

/-! ## Search for an error -/

namespace AgvController

/-- The search passes errors that do not resemble the given one. -/
private theorem findErrorIndex_append {error : Error}
    (referenced : error.errorReferences.isSome = true) {front rest : List StateError}
    (present : ∀ candidate ∈ front, candidate.error.errorReferences.isSome = true)
    (unlike : ∀ candidate ∈ front, candidate.error.resembles error = false) (index : Nat) :
    findErrorIndex error (front ++ rest) index =
      findErrorIndex error rest (index + front.length) := by
  induction front generalizing index with
  | nil => rfl
  | cons candidate front ih =>
      have here := unlike candidate List.mem_cons_self
      rw [List.cons_append, findErrorIndex_cons,
        Error.compareErrors_eq (present candidate List.mem_cons_self) referenced, here]
      have next := ih (fun other member => present other (List.mem_cons_of_mem _ member))
        (fun other member => unlike other (List.mem_cons_of_mem _ member)) (index + 1)
      rw [List.length_cons, Nat.add_comm front.length, ← Nat.add_assoc]
      exact next

/-- The search ends at the first error that resembles the given one. -/
private theorem findErrorIndex_found {error : Error}
    (referenced : error.errorReferences.isSome = true)
    {front back : List StateError} {found : StateError}
    (present : ∀ candidate ∈ front ++ found :: back,
      candidate.error.errorReferences.isSome = true)
    (unlike : ∀ candidate ∈ front, candidate.error.resembles error = false)
    (resembles : found.error.resembles error = true) :
    findErrorIndex error (front ++ found :: back) 0 = .ok (some front.length) := by
  rw [findErrorIndex_append referenced
    (fun candidate member => present candidate (List.mem_append_left _ member)) unlike,
    findErrorIndex_cons, Error.compareErrors_eq
      (present found (List.mem_append_right _ List.mem_cons_self)) referenced, resembles]
  simp [Except.bind]

private theorem findErrorIndex_missed {error : Error}
    (referenced : error.errorReferences.isSome = true) {errors : List StateError}
    (present : ∀ candidate ∈ errors, candidate.error.errorReferences.isSome = true)
    (unlike : ∀ candidate ∈ errors, candidate.error.resembles error = false) :
    findErrorIndex error errors 0 = .ok none := by
  have passed : findErrorIndex error (errors ++ []) 0 = findErrorIndex error [] _ :=
    findErrorIndex_append referenced present unlike 0
  rwa [List.append_nil] at passed

/-- Either no error resembles the given one, or there is a first one. -/
private theorem exists_first_resembling (error : Error) (errors : List StateError) :
    (∀ candidate ∈ errors, candidate.error.resembles error = false) ∨
      ∃ front found back, errors = front ++ found :: back ∧
        (∀ candidate ∈ front, candidate.error.resembles error = false) ∧
          found.error.resembles error = true := by
  cases searched : errors.find? (·.error.resembles error) with
  | none =>
      refine .inl fun candidate member => ?_
      simpa using List.find?_eq_none.mp searched candidate member
  | some found =>
      obtain ⟨resembles, front, back, split, unlike⟩ := List.find?_eq_some_iff_append.mp searched
      exact .inr ⟨front, found, back, split, fun candidate member => by
        simpa using unlike candidate member, resembles⟩

end AgvController

/-! ## Updates of the errors -/

namespace Config

/-- The errors of the current state, whatever objects they are. -/
def errors (c : Config) : List Error := c.agv.currentState.errors.map (·.error)

private theorem cloneErrors_error (nextErrorRef : Nat) (errors : List StateError) :
    (cloneErrors nextErrorRef errors).map (·.error) = errors.map (·.error) := by
  rw [cloneErrors, List.map_map]
  have entries : errors.map (·.error) = errors.zipIdx.map (·.1.error) := by
    conv_lhs => rw [← List.zipIdx_map_fst 0 errors, List.map_map]
    rfl
  rw [entries]
  rfl

private theorem updatePartialState_errors (c : Config) (errors : List StateError)
    (reportImmediately : Bool) :
    (c.updatePartialState { errors := some errors } reportImmediately).errors =
      errors.map (·.error) := by
  simp [Config.errors, updatePartialState, cloneState, State.merge, cloneErrors_error]

private theorem updatePartialState_crashed (c : Config) (newState : PartialState)
    (reportImmediately : Bool) :
    (c.updatePartialState newState reportImmediately).crashed = c.crashed := by
  simp [updatePartialState]

/-- An error that is the same as the given one is in the current state. -/
def ContainsError (c : Config) (error : Error) : Prop := ∃ other ∈ c.errors, other.IsSame error

/-- The comparison never fails on the given errors, and is an equivalence relation. -/
structure ComparesEquivalently (errors : List Error) : Prop where
  refl : ∀ error ∈ errors, compareErrors error error = .ok true
  symm : ∀ first ∈ errors, ∀ second ∈ errors, compareErrors first second = .ok true →
    compareErrors second first = .ok true
  trans : ∀ first ∈ errors, ∀ second ∈ errors, ∀ third ∈ errors,
    compareErrors first second = .ok true → compareErrors second third = .ok true →
      compareErrors first third = .ok true

/-- `updateErrors` treats the errors of the current state as a set. -/
structure UpdatesErrorSet (c : Config) (error : Error) : Prop where
  total : ∀ mode reportImmediately,
    (c.updateErrors error mode reportImmediately).crashed = c.crashed
  adds : ¬ c.ContainsError error → ∀ reportImmediately,
    (c.updateErrors error .add reportImmediately).errors = c.errors ++ [error]
  addsOnce : c.ContainsError error → ∀ reportImmediately,
    c.updateErrors error .add reportImmediately = c
  removes : c.ContainsError error → ∀ reportImmediately, ∃ front same back,
    c.errors = front ++ same :: back ∧ same.IsSame error ∧
      (c.updateErrors error .remove reportImmediately).errors = front ++ back
  removesNothing : ¬ c.ContainsError error → ∀ reportImmediately,
    c.updateErrors error .remove reportImmediately = c
  restores : ¬ c.ContainsError error → ∀ reportAdded reportRemoved,
    ((c.updateErrors error .add reportAdded).updateErrors error .remove reportRemoved).errors =
      c.errors
  equivalence : ComparesEquivalently (error :: c.errors)

/-- All errors have references. Those that agree and have as many references resemble each
other mutually, and the first one that resembles the given one is the same. -/
structure ComparesExactly (errors : List Error) (error : Error) : Prop where
  referenced : ∀ other ∈ error :: errors, other.errorReferences.isSome = true
  mutually : ∀ first ∈ error :: errors, ∀ second ∈ error :: errors,
    first.resembles second = true → second.resembles first = true
  exactly : ∀ front found back, errors = front ++ found :: back →
    (∀ other ∈ front, other.resembles error = false) → found.resembles error = true →
      found.references.Perm error.references

/-- What the search yields for the current state. -/
private theorem findErrorIndex_errors {c : Config} {error : Error}
    (referenced : ∀ other ∈ error :: c.errors, other.errorReferences.isSome = true) :
    (findErrorIndex error c.agv.currentState.errors 0 = .ok none ∧
      ∀ other ∈ c.errors, other.resembles error = false) ∨
    ∃ front found back, c.agv.currentState.errors = front ++ found :: back ∧
      findErrorIndex error c.agv.currentState.errors 0 = .ok (some front.length) ∧
      (∀ other ∈ front, other.error.resembles error = false) ∧
        found.error.resembles error = true := by
  have known := referenced error List.mem_cons_self
  have present : ∀ candidate ∈ c.agv.currentState.errors,
      candidate.error.errorReferences.isSome = true := fun candidate member =>
    referenced _ (List.mem_cons_of_mem _ (List.mem_map_of_mem member))
  rcases exists_first_resembling error c.agv.currentState.errors with
    unlike | ⟨front, found, back, split, unlike, resembles⟩
  · refine .inl ⟨findErrorIndex_missed known present unlike, fun other member => ?_⟩
    obtain ⟨candidate, included, rfl⟩ := List.mem_map.mp member
    exact unlike candidate included
  · refine .inr ⟨front, found, back, split, ?_, unlike, resembles⟩
    rw [split] at present ⊢
    exact findErrorIndex_found known present unlike resembles

/-- An update after nothing has been found. -/
theorem updateErrors_missed {c : Config} {error : Error}
    (missed : findErrorIndex error c.agv.currentState.errors 0 = .ok none)
    (reportImmediately : Bool) :
    c.updateErrors error .remove reportImmediately = c ∧
      (c.updateErrors error .add reportImmediately).errors = c.errors ++ [error] ∧
      (c.updateErrors error .add reportImmediately).crashed = c.crashed := by
  have removal : newErrors c.agv.currentState.errors error .remove = .ok none := by
    rw [newErrors, missed]
    rfl
  have addition : newErrors c.agv.currentState.errors error .add =
      .ok (some (c.agv.currentState.errors ++ [{ ref := 0, error }])) := by
    rw [newErrors, missed]
    rfl
  simp only [updateErrors, removal, addition]
  refine ⟨trivial, ?_, updatePartialState_crashed _ _ _⟩
  rw [updatePartialState_errors, List.map_append]
  rfl

/-- An update after an error has been found. -/
theorem updateErrors_found {c : Config} {error : Error} {front back : List StateError}
    {found : StateError} (split : c.agv.currentState.errors = front ++ found :: back)
    (searched : findErrorIndex error c.agv.currentState.errors 0 = .ok (some front.length))
    (reportImmediately : Bool) :
    c.updateErrors error .add reportImmediately = c ∧
      (c.updateErrors error .remove reportImmediately).errors =
        front.map (·.error) ++ back.map (·.error) ∧
      (c.updateErrors error .remove reportImmediately).crashed = c.crashed := by
  have addition : newErrors c.agv.currentState.errors error .add = .ok none := by
    rw [newErrors, searched]
    rfl
  have removal : newErrors c.agv.currentState.errors error .remove =
      .ok (some (front ++ back)) := by
    rw [newErrors, searched, split]
    have erased : (front ++ found :: back).eraseIdx front.length = front ++ back := by
      rw [List.eraseIdx_append_of_length_le (Nat.le_refl _), Nat.sub_self]
      rfl
    simp only [bind, Except.bind, erased]
    rfl
  simp only [updateErrors, removal, addition]
  refine ⟨trivial, ?_, updatePartialState_crashed _ _ _⟩
  rw [updatePartialState_errors, List.map_append]

variable {c : Config} {error : Error}

/-- The comparison of errors that all have references. -/
private theorem ComparesEquivalently.of_mutually {errors : List Error}
    (referenced : ∀ other ∈ errors, other.errorReferences.isSome = true)
    (mutually : ∀ first ∈ errors, ∀ second ∈ errors,
      first.resembles second = true → second.resembles first = true) :
    ComparesEquivalently errors where
  refl other member := by
    rw [Error.compareErrors_eq (referenced other member) (referenced other member),
      Error.resembles_refl]
  symm first member second member' compared := by
    rw [Error.compareErrors_eq (referenced _ member) (referenced _ member')] at compared
    rw [Error.compareErrors_eq (referenced _ member') (referenced _ member),
      mutually first member second member' (Except.ok.inj compared)]
  trans first member second member' third member'' left right := by
    rw [Error.compareErrors_eq (referenced _ member) (referenced _ member')] at left
    rw [Error.compareErrors_eq (referenced _ member') (referenced _ member'')] at right
    rw [Error.compareErrors_eq (referenced _ member) (referenced _ member''),
      Error.resembles_trans (Except.ok.inj left) (Except.ok.inj right)]

/-- The first error that resembles the given one is the same, if all are compared exactly. -/
private theorem ComparesExactly.isSame (compares : ComparesExactly c.errors error)
    {front back : List StateError} {found : StateError}
    (split : c.agv.currentState.errors = front ++ found :: back)
    (unlike : ∀ other ∈ front, other.error.resembles error = false)
    (resembles : found.error.resembles error = true) : found.error.IsSame error := by
  refine ⟨(Error.resembles_iff.mp resembles).1, ?_⟩
  refine compares.exactly (front.map (·.error)) found.error (back.map (·.error)) ?_ ?_ resembles
  · simp [errors, split]
  · intro other member
    obtain ⟨candidate, included, rfl⟩ := List.mem_map.mp member
    exact unlike candidate included

/-- Only the last element of a list has a property. -/
private theorem eq_of_concat_eq {others front back : List Error} {last found : Error}
    {property : Error → Bool} (split : others ++ [last] = front ++ found :: back)
    (unlike : ∀ other ∈ others, property other = false) (has : property found = true) :
    front = others ∧ back = [] := by
  rcases List.eq_nil_or_concat back with rfl | ⟨back, final, rfl⟩
  · exact ⟨(List.append_inj' split rfl).1.symm, rfl⟩
  · rw [List.concat_eq_append, ← List.cons_append, ← List.append_assoc] at split
    obtain ⟨rfl, -⟩ := List.append_inj' split rfl
    have none := unlike found (List.mem_append_right _ List.mem_cons_self)
    rw [has] at none
    cases none

/-- The error that has been added is found again. -/
private theorem ComparesExactly.restores (compares : ComparesExactly c.errors error)
    (unlike : ∀ other ∈ c.errors, other.resembles error = false) {added : Config}
    (errors : added.errors = c.errors ++ [error]) (reportImmediately : Bool) :
    (added.updateErrors error .remove reportImmediately).errors = c.errors := by
  have referenced : ∀ other ∈ error :: added.errors, other.errorReferences.isSome = true := by
    intro other member
    refine compares.referenced other ?_
    rw [errors] at member
    simp only [List.mem_cons, List.mem_append, List.not_mem_nil, or_false] at member ⊢
    tauto
  rcases findErrorIndex_errors referenced with
    ⟨-, none⟩ | ⟨front, found, back, split, searched, -, resembles⟩
  · have itself := none error (by rw [errors]; exact List.mem_append_right _ List.mem_cons_self)
    rw [Error.resembles_refl] at itself
    cases itself
  · have texts : c.errors ++ [error] =
        front.map (·.error) ++ found.error :: back.map (·.error) := by
      rw [← errors, Config.errors, split]
      simp
    obtain ⟨same, rest⟩ := eq_of_concat_eq texts unlike resembles
    rw [(updateErrors_found split searched reportImmediately).2.1, same, rest, List.append_nil]

/-- Errors that are compared exactly are updated as a set. -/
private theorem ComparesExactly.updatesErrorSet (compares : ComparesExactly c.errors error) :
    UpdatesErrorSet c error := by
  have equivalence := ComparesEquivalently.of_mutually compares.referenced compares.mutually
  rcases findErrorIndex_errors compares.referenced with
    ⟨missed, unlike⟩ | ⟨front, found, back, split, searched, unlike, resembles⟩
  · have absent : ¬ c.ContainsError error := by
      rintro ⟨other, member, same⟩
      have resembles := same.resembles
      rw [unlike other member] at resembles
      cases resembles
    refine
      { total := fun mode report => ?_
        adds := fun _ report => (updateErrors_missed missed report).2.1
        addsOnce := fun contained => absurd contained absent
        removes := fun contained => absurd contained absent
        removesNothing := fun _ report => (updateErrors_missed missed report).1
        restores := fun _ reportAdded reportRemoved =>
          compares.restores unlike (updateErrors_missed missed reportAdded).2.1 reportRemoved
        equivalence }
    cases mode with
    | add => exact (updateErrors_missed missed report).2.2
    | remove => rw [(updateErrors_missed missed report).1]
  · have same := compares.isSame split unlike resembles
    have contained : c.ContainsError error :=
      ⟨found.error, by simp [errors, split], same⟩
    refine
      { total := fun mode report => ?_
        adds := fun absent => absurd contained absent
        addsOnce := fun _ report => (updateErrors_found split searched report).1
        removes := fun _ report => ⟨front.map (·.error), found.error, back.map (·.error),
          by simp [errors, split], same, (updateErrors_found split searched report).2.1⟩
        removesNothing := fun absent => absurd contained absent
        restores := fun absent => absurd contained absent
        equivalence }
    cases mode with
    | add => rw [(updateErrors_found split searched report).1]
    | remove => exact (updateErrors_found split searched report).2.2

/-- Errors that are updated as a set are compared exactly. -/
private theorem UpdatesErrorSet.comparesExactly (updates : UpdatesErrorSet c error) :
    ComparesExactly c.errors error := by
  have referenced : ∀ other ∈ error :: c.errors, other.errorReferences.isSome = true :=
    fun other member => Error.isSome_of_compareErrors_self (updates.equivalence.refl other member)
  refine { referenced, mutually := ?_, exactly := ?_ }
  · intro first member second member' resembles
    have compared := updates.equivalence.symm first member second member' (by
      rw [Error.compareErrors_eq (referenced _ member) (referenced _ member'), resembles])
    rw [Error.compareErrors_eq (referenced _ member') (referenced _ member)] at compared
    exact Except.ok.inj compared
  · intro front found back split unlike resembles
    rcases findErrorIndex_errors referenced with
      ⟨-, none⟩ | ⟨front', first, back', split', searched, unlike', resembles'⟩
    · have unlike := none found (by rw [split]; exact List.mem_append_right _ List.mem_cons_self)
      rw [resembles] at unlike
      cases unlike
    · have texts : c.errors = front'.map (·.error) ++ first.error :: back'.map (·.error) := by
        simp [errors, split']
      have isFirst : found = first.error := by
        have searched : c.errors.find? (·.resembles error) = some found :=
          List.find?_eq_some_iff_append.mpr
            ⟨resembles, front, back, split, fun other member => by simp [unlike other member]⟩
        have searched' : c.errors.find? (·.resembles error) = some first.error :=
          List.find?_eq_some_iff_append.mpr
            ⟨resembles', front'.map (·.error), back'.map (·.error), texts, fun other member => by
            obtain ⟨candidate, included, rfl⟩ := List.mem_map.mp member
            simp [unlike' candidate included]⟩
        exact Option.some.inj (searched.symm.trans searched')
      obtain ⟨unchanged, removed, -⟩ := updateErrors_found split' searched true
      have contained : c.ContainsError error := by
        by_contra absent
        have grown := congrArg List.length (updates.adds absent true)
        rw [unchanged, List.length_append] at grown
        simp at grown
      -- what has been removed is the first error, and by the specification the same one
      obtain ⟨before, same, behind, split'', isSame, removed'⟩ := updates.removes contained true
      have rest : front'.map (·.error) ++ back'.map (·.error) = before ++ behind :=
        removed.symm.trans removed'
      have perm : (first.error :: (before ++ behind)).Perm (same :: (before ++ behind)) := calc
        (first.error :: (before ++ behind)).Perm
            (front'.map (·.error) ++ first.error :: back'.map (·.error)) := by
          rw [← rest]
          exact List.perm_middle.symm
        _ = before ++ same :: behind := by rw [← texts, split'']
        List.Perm _ (same :: (before ++ behind)) := List.perm_middle
      have equal : first.error = same := by
        have counts := perm.count_eq same
        rw [List.count_cons_self, List.count_cons] at counts
        by_contra different
        rw [if_neg (by simpa using different)] at counts
        omega
      rw [isFirst, equal]
      exact isSame.2

/-- `updateErrors` treats the errors of the current state as a set if and only if they
and the given error are compared exactly. -/
theorem updatesErrorSet_iff (c : Config) (error : Error) :
    UpdatesErrorSet c error ↔ ComparesExactly c.errors error :=
  ⟨UpdatesErrorSet.comparesExactly, ComparesExactly.updatesErrorSet⟩

/-- An error without references, which are optional. -/
def plainError : Error where
  errorType := "plain"
  errorLevel := .warning

/-- Adding an error without references twice fails. -/
theorem not_updatesErrorSet_plainError :
    ¬ ∀ (c : Config) (error : Error), (∀ other ∈ error :: c.errors, other.conforms = true) →
      UpdatesErrorSet c error := by
  intro updates
  have total := (updates ((Config.initial 1).updateErrors plainError .add false) plainError
    (by decide)).total .add false
  have fails : (((Config.initial 1).updateErrors plainError .add false).updateErrors plainError
      .add false).crashed = true := by decide
  rw [fails] at total
  revert total
  decide

end Config

end Vda5050
