import Mathlib.Algebra.Order.Group.Multiset
import Mathlib.Data.List.Perm.Subperm

/-!
# Ledgers

What one party gives to another is held there until it is returned. No entry is held or
returned more often than it has been given, whatever the steps in between.
-/

set_option autoImplicit false

namespace Library

variable {Entry Value : Type} {before middle after given given' returned returned' : List Entry}

/-- Of the entries held before and those given, each is held after, is returned, or is
dropped. -/
def Settles (before given after returned : List Entry) : Prop :=
  (after ++ returned).Subperm (before ++ given)

namespace Settles

theorem keep (held given : List Entry) : Settles held given held [] := by
  rw [Settles, List.append_nil]
  exact (List.sublist_append_left held given).subperm

theorem take (held given : List Entry) : Settles held given (held ++ given) [] := by
  rw [Settles, List.append_nil]

/-- What is given is returned at once. -/
theorem refuse (held given : List Entry) : Settles held given held given := List.Subperm.refl _

theorem replace (held given : List Entry) : Settles held given given [] := by
  rw [Settles, List.append_nil]
  exact (List.sublist_append_right held given).subperm

theorem drop (held given : List Entry) : Settles held given [] [] := List.nil_subperm

theorem giveBack (held given : List Entry) : Settles held given [] held :=
  (List.sublist_append_left held given).subperm

/-- Entries that are removed may be returned. -/
theorem filter (keeps : Entry → Bool) {entries : List Entry} {entry : Entry}
    (member : entry ∈ entries) (removed : keeps entry = false) :
    Settles entries [] (entries.filter keeps) [entry] := by
  have found : entry ∈ entries.filter fun entry => !keeps entry := by simp [member, removed]
  have freed := List.Subperm.append (.refl (entries.filter keeps))
    (List.singleton_subperm_iff.mpr found)
  rw [Settles, List.append_nil]
  exact freed.trans (List.filter_append_perm keeps entries).subperm

theorem trans (first : Settles before given middle returned)
    (second : Settles middle given' after returned') :
    Settles before (given ++ given') after (returned ++ returned') := by
  unfold Settles at *
  simp only [← Multiset.coe_le, ← Multiset.coe_add] at *
  calc (after : Multiset Entry) + (returned + returned')
      = after + returned' + returned := by rw [add_comm (returned : Multiset Entry), add_assoc]
    _ ≤ middle + given' + returned := add_le_add second le_rfl
    _ = middle + returned + given' := add_right_comm _ _ _
    _ ≤ before + given + given' := add_le_add first le_rfl
    _ = before + (given + given') := add_assoc _ _ _

theorem map (value : Entry → Value) (settles : Settles before given after returned) :
    Settles (before.map value) (given.map value) (after.map value) (returned.map value) := by
  obtain ⟨kept, perm, sublist⟩ := settles
  rw [Settles, ← List.map_append, ← List.map_append]
  exact ⟨kept.map value, perm.map value, sublist.map value⟩

theorem unreturned (settles : Settles before given after returned) :
    Settles before given after [] := by
  rw [Settles, List.append_nil]
  exact (List.sublist_append_left after returned).subperm.trans settles

/-- The order of the entries does not matter. -/
theorem perm {before' given₀ after' returned₀ : List Entry}
    (settles : Settles before given after returned)
    (owed : (before ++ given).Perm (before' ++ given₀))
    (kept : (after ++ returned).Perm (after' ++ returned₀)) :
    Settles before' given₀ after' returned₀ :=
  (kept.symm.subperm.trans settles).trans owed.subperm

theorem mem_of_held (settles : Settles before [] after returned) {entry : Entry}
    (held : entry ∈ after) : entry ∈ before := by
  rw [Settles, List.append_nil] at settles
  exact settles.subset (List.mem_append_left _ held)

theorem mem_of_returned (settles : Settles before [] after returned) {entry : Entry}
    (back : entry ∈ returned) : entry ∈ before := by
  rw [Settles, List.append_nil] at settles
  exact settles.subset (List.mem_append_right _ back)

/-- An entry that is returned is not owed any more. -/
theorem erase [DecidableEq Entry] {entry : Entry}
    (settles : Settles before [] after (entry :: returned)) :
    Settles (before.erase entry) [] after returned := by
  rw [Settles, List.append_nil] at *
  have freed := (List.perm_middle.symm.subperm.trans settles).erase entry
  rwa [List.erase_cons_head] at freed

end Settles

theorem filterMap_singleton (value : Entry → Option Value) (entry : Entry) :
    [entry].filterMap value = (value entry).toList := by
  cases found : value entry <;> simp [found]

end Library
