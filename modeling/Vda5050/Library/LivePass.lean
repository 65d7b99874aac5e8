import Mathlib.Data.List.Nodup

/-!
# Passes over a list that changes

A pass visits the items of a list one after the other, while items may be
appended to the list and some of those ahead may be passed over. It visits the
items it started with, each once, if and only if it only passes over items
that came later and visits no such item.
-/

set_option autoImplicit false

namespace Library

/-- The items visited by a pass, and those still ahead of it. -/
structure Pass (Item : Type) where
  visited : List Item
  ahead : List Item

namespace Pass

variable {Item : Type} {items : List Item} {visited ahead passed rest : List Item} {item : Item}

/-- The items visited and those of the given ones that are still ahead make up the
given ones. Items that came later follow. -/
def OnCourse (items : List Item) (pass : Pass Item) : Prop :=
  ∃ due later, pass.ahead = due ++ later ∧ pass.visited ++ due = items ∧
    ∀ other ∈ later, other ∉ items

/-- An item that came later has been visited, or one of the given ones never will be. -/
def OffCourse (items : List Item) (pass : Pass Item) : Prop :=
  (∃ other ∈ pass.visited, other ∉ items) ∨
    ∃ other ∈ items, other ∉ pass.visited ∧ other ∉ pass.ahead

/-- The pass visits one of the given items and passes over none of them. -/
def Proper (items : List Item) (item : Item) (passed : List Item) : Prop :=
  item ∈ items ∧ ∀ other ∈ passed, other ∉ items

theorem OnCourse.start (items : List Item) : OnCourse items { visited := [], ahead := items } :=
  ⟨items, [], by simp, rfl, nofun⟩

theorem OnCourse.append (onCourse : OnCourse items { visited, ahead }) {added : List Item}
    (later : ∀ other ∈ added, other ∉ items) :
    OnCourse items { visited, ahead := ahead ++ added } := by
  obtain ⟨due, known, rfl, visits, came⟩ := onCourse
  refine ⟨due, known ++ added, List.append_assoc _ _ _, visits, fun other member => ?_⟩
  rcases List.mem_append.mp member with earlier | new
  · exact came other earlier
  · exact later other new

/-- The item visited by a proper step is the next one that is due. Whatever is passed
over, nothing else is. -/
theorem OnCourse.visit (onCourse : OnCourse items { visited, ahead := item :: (passed ++ rest) })
    (proper : Proper items item passed) :
    OnCourse items { visited := visited ++ [item], ahead := rest } := by
  obtain ⟨due, later, split, visits, came⟩ := onCourse
  cases due with
  | nil =>
      have member : item ∈ later := by
        rw [List.nil_append] at split
        exact split ▸ List.mem_cons_self
      exact absurd proper.1 (came item member)
  | cons first due =>
      rw [List.cons_append, List.cons.injEq] at split
      obtain ⟨rfl, split⟩ := split
      have given : ∀ other ∈ due, other ∈ items := fun other member => by
        rw [← visits]
        exact List.mem_append_right _ (List.mem_cons_of_mem _ member)
      rcases List.append_eq_append_iff.mp split with ⟨skipped, rfl, rfl⟩ | ⟨skipped, rfl, rfl⟩
      · have unskipped : passed = [] := List.eq_nil_iff_forall_not_mem.mpr fun other member =>
          proper.2 other member (given other (List.mem_append_left _ member))
        subst unskipped
        exact ⟨skipped, later, rfl, by simpa using visits, came⟩
      · have done : due = [] := List.eq_nil_iff_forall_not_mem.mpr fun other member =>
          proper.2 other (List.mem_append_left _ member) (given other member)
        subst done
        exact ⟨[], rest, rfl, by simpa using visits, fun other member =>
          came other (List.mem_append_right _ member)⟩

/-- A step that is not proper leads off course for good. -/
theorem OnCourse.leave (onCourse : OnCourse items { visited, ahead := item :: (passed ++ rest) })
    (unique : items.Nodup) (distinct : (item :: (passed ++ rest)).Nodup)
    (improper : ¬ Proper items item passed) :
    OffCourse items { visited := visited ++ [item], ahead := rest } := by
  by_cases known : item ∈ items
  · have left : ∃ other ∈ passed, other ∈ items := by
      by_contra none
      refine improper ⟨known, fun other member included => none ⟨other, member, included⟩⟩
    obtain ⟨other, member, included⟩ := left
    obtain ⟨due, later, split, visits, came⟩ := onCourse
    obtain ⟨fresh, distinct⟩ := List.nodup_cons.mp distinct
    refine .inr ⟨other, included, fun visited => ?_, fun again => ?_⟩
    · have isDue : other ∈ due := by
        have further : other ∈ due ++ later := split ▸
          List.mem_cons_of_mem _ (List.mem_append_left _ member)
        exact (List.mem_append.mp further).resolve_right fun came' => came other came' included
      rcases List.mem_append.mp visited with earlier | now
      · rw [← visits] at unique
        exact (List.nodup_append.mp unique).2.2 other earlier other isDue rfl
      · obtain rfl := List.mem_singleton.mp now
        exact fresh (List.mem_append_left _ member)
    · exact (List.nodup_append.mp distinct).2.2 other member other again rfl
  · exact .inl ⟨item, List.mem_append_right _ List.mem_cons_self, known⟩

theorem OffCourse.visit (offCourse : OffCourse items { visited, ahead := item :: (passed ++ rest) }) :
    OffCourse items { visited := visited ++ [item], ahead := rest } := by
  rcases offCourse with ⟨other, member, unknown⟩ | ⟨other, known, unvisited, behind⟩
  · exact .inl ⟨other, List.mem_append_left _ member, unknown⟩
  · refine .inr ⟨other, known, fun member => ?_, fun member => ?_⟩
    · rcases List.mem_append.mp member with earlier | now
      · exact unvisited earlier
      · exact behind (List.mem_singleton.mp now ▸ List.mem_cons_self)
    · exact behind (List.mem_cons_of_mem _ (List.mem_append_right _ member))

theorem OffCourse.append (offCourse : OffCourse items { visited, ahead }) {added : List Item}
    (later : ∀ other ∈ added, other ∉ items) :
    OffCourse items { visited, ahead := ahead ++ added } := by
  rcases offCourse with ⟨other, member, unknown⟩ | ⟨other, known, unvisited, behind⟩
  · exact .inl ⟨other, member, unknown⟩
  · refine .inr ⟨other, known, unvisited, fun member => ?_⟩
    rcases List.mem_append.mp member with ahead | new
    · exact behind ahead
    · exact later other new known

/-- A pass on course that is over has visited the items in order. -/
theorem OnCourse.visited_eq (onCourse : OnCourse items { visited, ahead := [] }) :
    visited = items := by
  obtain ⟨due, later, split, visits, -⟩ := onCourse
  obtain ⟨rfl, -⟩ := List.append_eq_nil_iff.mp split.symm
  rwa [List.append_nil] at visits

/-- A pass off course that is over has not visited exactly the items. -/
theorem OffCourse.not_perm (offCourse : OffCourse items { visited, ahead }) :
    ¬ visited.Perm items := by
  intro perm
  rcases offCourse with ⟨other, member, unknown⟩ | ⟨other, known, unvisited, -⟩
  · exact unknown (perm.mem_iff.mp member)
  · exact unvisited (perm.mem_iff.mpr known)

end Pass

end Library
