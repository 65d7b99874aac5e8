import Mathlib.Data.List.Nodup

/-!
# Lists whose elements are addressed by a key

An element of a list is found by comparing keys. As long as the keys of the
list are distinct, the position found is the position of the element itself.
-/

set_option autoImplicit false

namespace Library

variable {Element Key : Type} (key : Element → Key)

/-- The elements around a member of a list with distinct keys have other keys. -/
theorem split_of_mem {elements : List Element} {element : Element}
    (unique : (elements.map key).Nodup) (member : element ∈ elements) :
    ∃ before after, elements = before ++ element :: after ∧
      (∀ other ∈ before, key other ≠ key element) ∧
      ∀ other ∈ after, key other ≠ key element := by
  obtain ⟨before, after, rfl⟩ := List.append_of_mem member
  rw [List.map_append, List.map_cons, List.nodup_append, List.nodup_cons] at unique
  obtain ⟨-, ⟨behind, -⟩, front⟩ := unique
  refine ⟨before, after, rfl, fun other included same => ?_, fun other included same => ?_⟩
  · exact front _ (List.mem_map_of_mem included) _ List.mem_cons_self same
  · exact behind (same ▸ List.mem_map_of_mem included)

/-- Members of a list with distinct keys are equal if their keys are. -/
theorem eq_of_key {elements : List Element} {left right : Element}
    (unique : (elements.map key).Nodup) (first : left ∈ elements) (second : right ∈ elements)
    (same : key left = key right) : left = right :=
  List.inj_on_of_nodup_map unique first second same

/-- What stands before an element in a list without duplicates stands in front of it. -/
theorem mem_front_of_sublist {front behind : List Element} {earlier element : Element}
    (unique : (front ++ element :: behind).Nodup)
    (before : [earlier, element].Sublist (front ++ element :: behind)) : earlier ∈ front := by
  obtain ⟨left, right, split, inFront, inRest⟩ := List.sublist_append_iff.mp before
  have fresh : element ∉ behind := (List.nodup_cons.mp (List.nodup_append.mp unique).2.1).1
  cases left with
  | nil =>
      rw [List.nil_append] at split
      subst split
      cases inRest with
      | cons _ sub => exact absurd (sub.subset (by simp)) fresh
      | cons_cons _ sub => exact absurd (sub.subset (by simp)) fresh
  | cons head left =>
      obtain ⟨rfl, -⟩ := List.cons.inj split
      exact inFront.subset List.mem_cons_self

variable [DecidableEq Key]

/-- An element is found behind elements with other keys. -/
theorem findIdx?_key {before after : List Element} {element : Element}
    (absent : ∀ other ∈ before, key other ≠ key element) :
    (before ++ element :: after).findIdx? (fun other => key other = key element) =
      some before.length := by
  induction before with
  | nil => simp [List.findIdx?_cons]
  | cons head before ih =>
      have different : key head ≠ key element := absent head List.mem_cons_self
      rw [List.cons_append, List.findIdx?_cons, if_neg (by simpa using different),
        ih fun other member => absent other (List.mem_cons_of_mem _ member)]
      rfl

/-- Removing an element by its key keeps the elements around it. -/
theorem filter_key {before after : List Element} {element : Element}
    (front : ∀ other ∈ before, key other ≠ key element)
    (behind : ∀ other ∈ after, key other ≠ key element) :
    (before ++ element :: after).filter (fun other => key other ≠ key element) =
      before ++ after := by
  rw [List.filter_append, List.filter_cons, if_neg (by simp),
    List.filter_eq_self.mpr (by simpa using front), List.filter_eq_self.mpr (by simpa using behind)]

end Library
