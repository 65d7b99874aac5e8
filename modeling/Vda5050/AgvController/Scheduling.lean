import Vda5050.AgvController.Basic
import Vda5050.Library.KeyedList
import Mathlib.Data.List.TakeWhile

/-!
# Scheduling by blocking type

The index arithmetic of the scheduling functions in terms of the lists around
an action: a batch is the run of actions in front of the next HARD one.
-/

set_option autoImplicit false

namespace Vda5050

namespace AgvController

/-- The actions to be executed in parallel up to the next HARD one. -/
def batch (actions : List Action) : List Action := actions.takeWhile fun action => !isHard action

/-- The actions from the next HARD one on. -/
def behindBatch (actions : List Action) : List Action :=
  actions.dropWhile fun action => !isHard action

theorem batch_append_behindBatch (actions : List Action) :
    batch actions ++ behindBatch actions = actions :=
  List.takeWhile_append_dropWhile

theorem not_isHard_of_mem_batch {actions : List Action} {action : Action}
    (member : action ∈ batch actions) : isHard action = false := by
  simpa using List.mem_takeWhile_imp member

theorem isHard_of_behindBatch_cons {actions behind : List Action} {action : Action}
    (same : behindBatch actions = action :: behind) : isHard action := by
  have first := List.head?_dropWhile_not (fun action => !isHard action) actions
  rw [← behindBatch, same] at first
  simpa using first

theorem batch_append {parallel actions : List Action}
    (soft : ∀ action ∈ parallel, isHard action = false) :
    batch (parallel ++ actions) = parallel ++ batch actions :=
  List.takeWhile_append_of_pos (by simpa using soft)

theorem behindBatch_append {parallel actions : List Action}
    (soft : ∀ action ∈ parallel, isHard action = false) :
    behindBatch (parallel ++ actions) = behindBatch actions :=
  List.dropWhile_append_of_pos (by simpa using soft)

theorem batch_of_head_isHard {actions : List Action}
    (hard : ∀ action ∈ actions.head?, isHard action) : batch actions = [] := by
  cases actions with
  | nil => rfl
  | cons action actions => simp [batch, hard action rfl]

theorem behindBatch_of_head_isHard {actions : List Action}
    (hard : ∀ action ∈ actions.head?, isHard action) : behindBatch actions = actions := by
  cases actions with
  | nil => rfl
  | cons action actions => simp [behindBatch, hard action rfl]

private theorem find?_isHard (actions : List Action) :
    actions.find? isHard = (behindBatch actions).head? :=
  List.find?_eq_head?_dropWhile_not isHard actions

private theorem findIdx?_isHard (actions : List Action) :
    actions.findIdx? isHard =
      if behindBatch actions = [] then none else some (batch actions).length := by
  induction actions with
  | nil => rfl
  | cons action actions ih =>
      cases hard : isHard action with
      | true => simp [behindBatch, batch, hard, List.findIdx?_cons]
      | false =>
          rw [List.findIdx?_cons, if_neg (by simp [hard]), ih]
          simp only [behindBatch, batch, hard, Bool.not_false, List.dropWhile_cons_of_pos,
            List.takeWhile_cons_of_pos, List.length_cons]
          split <;> simp [*]

/-- The next HARD action behind a start index, and where parallel execution stops. -/
theorem findIndexFrom_isHard {actions : List Action} {start : Nat}
    (inside : start ≤ actions.length) :
    ((findIndexFrom isHard start actions).isSome ↔ behindBatch (actions.drop start) ≠ []) ∧
      (findIndexFrom isHard start actions).getD actions.length =
        start + (batch (actions.drop start)).length := by
  unfold findIndexFrom
  rw [findIdx?_isHard]
  have whole := congrArg List.length (batch_append_behindBatch (actions.drop start))
  rw [List.length_append, List.length_drop] at whole
  split
  · next none =>
    simp only [none, List.length_nil] at whole
    simp only [Option.map_none, Option.getD_none, Option.isSome_none, ne_eq]
    exact ⟨by simp [none], by omega⟩
  · next some =>
    simp only [Option.map_some, Option.getD_some, Option.isSome_some, ne_eq]
    exact ⟨by simp [some], by omega⟩

section Split

variable {before after : List Action} {action : Action}
  (front : ∀ other ∈ before, other.actionId ≠ action.actionId)

include front

theorem startIndex_split :
    startIndex (before ++ action :: after) (some action) = before.length + 1 := by
  simp only [startIndex, Library.findIdx?_key Action.actionId front]

theorem getHardBlockingActionAfterParallelActions_split :
    getHardBlockingActionAfterParallelActions (before ++ action :: after) action =
      (behindBatch after).head? := by
  rw [getHardBlockingActionAfterParallelActions, startIndex_split front, ← find?_isHard]
  simp

theorem areParallelActionsEnded_split (agv : AgvController) (softOnly : Bool) :
    agv.areParallelActionsEnded (before ++ action :: after) action softOnly =
      (agv.parallelActionsEnded softOnly before.reverse &&
        agv.parallelActionsEnded softOnly after) := by
  simp only [areParallelActionsEnded, Library.findIdx?_key Action.actionId front]
  simp

end Split

/-- The scan of parallel actions covers the batch at its start. -/
theorem parallelActionsEnded_iff {agv : AgvController} {softOnly : Bool} {actions : List Action} :
    agv.parallelActionsEnded softOnly actions ↔
      ∀ action ∈ batch actions, (softOnly → isSoft action) → agv.isActionEnded action := by
  induction actions with
  | nil => simp [parallelActionsEnded, batch]
  | cons action actions ih =>
      cases hard : isHard action with
      | true => simp [parallelActionsEnded, batch, hard]
      | false =>
          rw [parallelActionsEnded, if_neg (by simp [hard])]
          simp only [batch, hard, Bool.not_false, List.takeWhile_cons_of_pos, List.mem_cons,
            forall_eq_or_imp] at ih ⊢
          cases softOnly <;> cases isSoft action <;> cases agv.isActionEnded action <;>
            simp_all

/-- The scan fails at any parallel action that has not ended. -/
theorem parallelActionsEnded_of_open {agv : AgvController} {parallel actions : List Action}
    (soft : ∀ action ∈ parallel, isHard action = false)
    (going : ∀ action ∈ parallel, agv.isActionEnded action = false)
    (barrier : ∀ action ∈ actions.head?, isHard action) :
    agv.parallelActionsEnded false (parallel ++ actions) = parallel.isEmpty := by
  rw [Bool.eq_iff_iff, parallelActionsEnded_iff, batch_append soft, batch_of_head_isHard barrier,
    List.append_nil]
  cases parallel with
  | nil => simp
  | cons action parallel => simp [going action List.mem_cons_self]

end AgvController

end Vda5050
