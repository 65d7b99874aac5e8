import Mathlib.Data.List.Basic
import Mathlib.Logic.Function.Iterate

/-!
# Numbered attempts

Every attempt takes the next number, whether it succeeds or not. The numbers of
successful attempts follow each other without gaps if and only if those lost in
between make up whole periods of the numbers.
-/

set_option autoImplicit false

namespace Library

variable {Number : Type} (next : Number → Number)

/-- The numbers of the successful attempts. -/
def numbered : Number → List Bool → List Number
  | _, [] => []
  | number, true :: attempts => number :: numbered (next number) attempts
  | number, false :: attempts => numbered (next number) attempts

/-- Each number is the one after that before it. -/
def Gapless (numbers : List Number) : Prop :=
  numbers.IsChain fun previous number => number = next previous

/-- The number of attempts that fail between two successful ones is a multiple. -/
def LosesMultiplesOf (period : Nat) (attempts : List Bool) : Prop :=
  ∀ before lost after,
    attempts = before ++ true :: (List.replicate lost false ++ true :: after) → period ∣ lost

variable {next} {period : Nat}

theorem numbered_append (number : Number) (attempts further : List Bool) :
    numbered next number (attempts ++ further) =
      numbered next number attempts ++ numbered next (next^[attempts.length] number) further := by
  induction attempts generalizing number with
  | nil => rfl
  | cons attempt attempts ih =>
      cases attempt <;> simp [numbered, ih, Function.iterate_succ_apply]

private theorem losesMultiplesOf_nil : LosesMultiplesOf period [] := by
  intro before lost after split
  simp at split

private theorem losesMultiplesOf_false_cons {attempts : List Bool} :
    LosesMultiplesOf period (false :: attempts) ↔ LosesMultiplesOf period attempts := by
  constructor
  · intro losses before lost after split
    exact losses (false :: before) lost after (by rw [split]; rfl)
  · intro losses before lost after split
    cases before with
    | nil => simp at split
    | cons first before =>
        rw [List.cons_append, List.cons.injEq] at split
        exact losses before lost after split.2

/-- Nothing is lost behind the last success. -/
private theorem losesMultiplesOf_replicate (lost : Nat) :
    LosesMultiplesOf period (true :: List.replicate lost false) := by
  intro before other after split
  have counts := congrArg (List.count true) split
  simp [List.count_replicate] at counts
  omega

/-- The first success ends a stretch of failures. -/
private theorem replicate_append_inj {lost other : Nat} {rest after : List Bool}
    (same : List.replicate lost false ++ true :: rest =
      List.replicate other false ++ true :: after) : lost = other ∧ rest = after := by
  induction lost generalizing other with
  | zero =>
      cases other with
      | zero => simpa using same
      | succ other => simp [List.replicate_succ] at same
  | succ lost ih =>
      cases other with
      | zero => simp [List.replicate_succ] at same
      | succ other =>
          rw [List.replicate_succ, List.replicate_succ, List.cons_append, List.cons_append,
            List.cons.injEq] at same
          obtain ⟨rfl, rest⟩ := ih same.2
          exact ⟨rfl, rest⟩

private theorem losesMultiplesOf_stretch {lost : Nat} {rest : List Bool} :
    LosesMultiplesOf period (true :: (List.replicate lost false ++ true :: rest)) ↔
      period ∣ lost ∧ LosesMultiplesOf period (true :: rest) := by
  constructor
  · intro losses
    refine ⟨losses [] lost rest rfl, fun before other after split => ?_⟩
    refine losses (true :: (List.replicate lost false ++ before)) other after ?_
    rw [split]
    simp
  · rintro ⟨divides, losses⟩ before other after split
    cases before with
    | nil =>
        rw [List.nil_append, List.cons.injEq] at split
        rw [← (replicate_append_inj split.2).1]
        exact divides
    | cons first before =>
        rw [List.cons_append, List.cons.injEq] at split
        rcases List.append_eq_append_iff.mp split.2 with ⟨rest', front, back⟩ | ⟨rest', front, back⟩
        · exact losses rest' other after back
        · -- the part before the success holds none, so it is the whole stretch
          cases rest' with
          | nil => exact losses [] other after back.symm
          | cons failure rest' =>
              have member : failure ∈ List.replicate lost false := by
                rw [front]
                exact List.mem_append_right _ List.mem_cons_self
              rw [List.cons_append, List.cons.injEq] at back
              exact absurd (back.1.trans (List.eq_of_mem_replicate member)) (by decide)

/-- The numbers after a success and some failures. -/
private theorem gapless_after
    (periodic : ∀ count number, next^[count] number = number ↔ period ∣ count)
    (number : Number) (lost : Nat) (attempts : List Bool) :
    Gapless next (number :: numbered next (next^[lost] (next number)) attempts) ↔
      LosesMultiplesOf period (true :: (List.replicate lost false ++ attempts)) := by
  induction attempts generalizing number lost with
  | nil =>
      rw [List.append_nil]
      exact iff_of_true (List.IsChain.singleton _) (losesMultiplesOf_replicate lost)
  | cons attempt attempts ih =>
      cases attempt with
      | false =>
          have stretch : List.replicate lost false ++ false :: attempts =
              List.replicate (lost + 1) false ++ attempts := by
            rw [List.replicate_succ', List.append_assoc, List.singleton_append]
          rw [numbered, stretch, ← ih number (lost + 1), Function.iterate_succ_apply']
      | true =>
          have rest := ih (next^[lost] (next number)) 0
          rw [List.replicate_zero, List.nil_append] at rest
          rw [numbered, losesMultiplesOf_stretch, ← rest, ← periodic lost (next number)]
          exact List.isChain_cons_cons

/-- The numbers of the successful attempts are gapless if and only if whole periods
are lost in between. -/
theorem gapless_numbered
    (periodic : ∀ count number, next^[count] number = number ↔ period ∣ count)
    (number : Number) (attempts : List Bool) :
    Gapless next (numbered next number attempts) ↔ LosesMultiplesOf period attempts := by
  induction attempts generalizing number with
  | nil => exact iff_of_true List.IsChain.nil losesMultiplesOf_nil
  | cons attempt attempts ih =>
      cases attempt with
      | false =>
          rw [numbered, losesMultiplesOf_false_cons]
          exact ih (next number)
      | true => exact gapless_after periodic number 0 attempts

end Library
