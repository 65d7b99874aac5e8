import Mathlib.Data.List.Nodup

/-!
# Lists of entries

Maps that keep the order in which their keys were added, with the lookups
after an entry has been put or deleted.
-/

set_option autoImplicit false

namespace Library

variable {Key Value : Type} [DecidableEq Key]

/-- Replace the value of a known key, or append a new entry. -/
def put (key : Key) (value : Value) (entries : List (Key × Value)) : List (Key × Value) :=
  if entries.any (·.1 = key) then
    entries.map fun entry => if entry.1 = key then (key, value) else entry
  else entries ++ [(key, value)]

theorem mem_put {key : Key} {value : Value} {entries : List (Key × Value)}
    {entry : Key × Value} (member : entry ∈ put key value entries) :
    entry = (key, value) ∨ entry ∈ entries := by
  unfold put at member
  split at member
  · obtain ⟨other, known, rfl⟩ := List.mem_map.mp member
    split
    · exact .inl rfl
    · exact .inr known
  · rcases List.mem_append.mp member with known | new
    · exact .inr known
    · exact .inl (List.mem_singleton.mp new)

theorem nodup_keys_put {key : Key} (value : Value) {entries : List (Key × Value)}
    (unique : (entries.map (·.1)).Nodup) : ((put key value entries).map (·.1)).Nodup := by
  unfold put
  split
  · have same : (entries.map fun entry => if entry.1 = key then (key, value) else entry).map (·.1) =
        entries.map (·.1) := by
      rw [List.map_map]
      refine List.map_congr_left fun entry _ => ?_
      by_cases found : entry.1 = key <;> simp [found]
    rw [same]
    exact unique
  · next absent =>
    rw [List.map_append, List.nodup_append]
    refine ⟨unique, by simp, fun known member new added same => ?_⟩
    obtain ⟨entry, included, rfl⟩ := List.mem_map.mp member
    obtain rfl : new = key := by simpa using added
    exact absent (List.any_eq_true.mpr ⟨entry, included, by simpa using same⟩)

/-- No key is lost. -/
theorem mem_keys_put {key other : Key} (value : Value) {entries : List (Key × Value)}
    (member : other ∈ entries.map (·.1)) : other ∈ (put key value entries).map (·.1) := by
  obtain ⟨entry, known, rfl⟩ := List.mem_map.mp member
  unfold put
  split
  · refine List.mem_map.mpr ⟨_, List.mem_map_of_mem known, ?_⟩
    split
    · next same => exact same.symm
    · rfl
  · exact List.mem_map_of_mem (List.mem_append_left _ known)

/-- A new key comes last. -/
theorem put_of_absent {key : Key} (value : Value) {entries : List (Key × Value)}
    (absent : ∀ entry ∈ entries, entry.1 ≠ key) :
    put key value entries = entries ++ [(key, value)] := by
  unfold put
  rw [if_neg]
  intro known
  obtain ⟨entry, member, same⟩ := List.any_eq_true.mp known
  exact absent entry member (by simpa using same)

/-- A known key keeps its place. -/
private theorem put_of_known {key : Key} (value : Value) {entries : List (Key × Value)}
    (known : ∃ entry ∈ entries, entry.1 = key) :
    put key value entries =
      entries.map fun entry => if entry.1 = key then (key, value) else entry := by
  unfold put
  rw [if_pos]
  simpa using known

/-- The entries around those that hold the key stay as they are. -/
theorem put_around {key : Key} (value : Value) {before middle after : List (Key × Value)}
    (front : ∀ entry ∈ before, entry.1 ≠ key) (behind : ∀ entry ∈ after, entry.1 ≠ key)
    (known : ∃ entry ∈ middle, entry.1 = key) :
    put key value (before ++ (middle ++ after)) = before ++ (put key value middle ++ after) := by
  have kept : ∀ entries : List (Key × Value), (∀ entry ∈ entries, entry.1 ≠ key) →
      (entries.map fun entry => if entry.1 = key then (key, value) else entry) = entries := by
    intro entries absent
    exact List.map_congr_left (fun entry member => if_neg (absent entry member)) |>.trans
      (List.map_id entries)
  obtain ⟨entry, member, same⟩ := known
  have within : entry ∈ before ++ (middle ++ after) :=
    List.mem_append_right _ (List.mem_append_left _ member)
  rw [put_of_known value ⟨entry, within, same⟩, put_of_known value ⟨entry, member, same⟩,
    List.map_append, List.map_append, kept before front, kept after behind]

theorem put_perm {key : Key} (value : Value) {entries others : List (Key × Value)}
    (perm : entries.Perm others) : (put key value entries).Perm (put key value others) := by
  unfold put
  rw [perm.any_eq]
  split
  · exact perm.map _
  · exact perm.append_right _

variable [BEq Key] [LawfulBEq Key]

private theorem lookup_cons_eq (key other : Key) (value : Value) (entries : List (Key × Value)) :
    ((key, value) :: entries).lookup other =
      if other = key then some value else entries.lookup other := by
  rw [List.lookup_cons]
  by_cases same : other = key
  · simp [same]
  · rw [beq_false_of_ne same, if_neg same]

theorem lookup_put (key other : Key) (value : Value) (entries : List (Key × Value)) :
    (put key value entries).lookup other =
      if other = key then some value else entries.lookup other := by
  have kept : other ≠ key → ∀ entries : List (Key × Value),
      (entries.map fun entry => if entry.1 = key then (key, value) else entry).lookup other =
        entries.lookup other := by
    intro different entries
    induction entries with
    | nil => rfl
    | cons entry entries ih =>
        obtain ⟨known, old⟩ := entry
        by_cases same : known = key
        · subst same
          simp [lookup_cons_eq, different, ih]
        · simp [lookup_cons_eq, same, ih]
  have replaced : ∀ entries : List (Key × Value), entries.any (·.1 = key) →
      (entries.map fun entry => if entry.1 = key then (key, value) else entry).lookup key =
        some value := by
    intro entries present
    induction entries with
    | nil => simp at present
    | cons entry entries ih =>
        obtain ⟨known, old⟩ := entry
        by_cases same : known = key
        · simp [same]
        · have rest := ih (by simpa [same] using present)
          simp [lookup_cons_eq, same, Ne.symm same, rest]
  unfold put
  split
  · next present =>
    by_cases wanted : other = key
    · rw [if_pos wanted, wanted]
      exact replaced entries present
    · rw [if_neg wanted]
      exact kept wanted entries
  · next absent =>
    rw [List.lookup_append]
    by_cases wanted : other = key
    · have missed : entries.lookup key = none := by
        refine List.lookup_eq_none_iff.mpr fun entry member => ?_
        have different : entry.1 ≠ key := fun same =>
          absent (List.any_eq_true.mpr ⟨entry, member, by simpa using same⟩)
        simpa using different.symm
      rw [wanted, missed]
      simp
    · simp [lookup_cons_eq, wanted]

theorem lookup_filter_ne (key other : Key) (entries : List (Key × Value)) :
    (entries.filter (·.1 ≠ key)).lookup other =
      if other = key then none else entries.lookup other := by
  induction entries with
  | nil => simp
  | cons entry entries ih =>
      obtain ⟨known, value⟩ := entry
      by_cases same : known = key
      · rw [List.filter_cons_of_neg (by simpa using same), ih, lookup_cons_eq, same]
        split <;> rfl
      · rw [List.filter_cons_of_pos (by simpa using same), lookup_cons_eq, lookup_cons_eq, ih]
        by_cases found : other = known
        · simp [found, same]
        · simp [found]

/-- Of entries with distinct keys, those of a list are the ones found in it. -/
theorem lookup_eq_some_iff {entries : List (Key × Value)} (unique : (entries.map (·.1)).Nodup)
    (key : Key) (value : Value) : entries.lookup key = some value ↔ (key, value) ∈ entries := by
  induction entries with
  | nil => simp
  | cons entry entries ih =>
      obtain ⟨known, old⟩ := entry
      obtain ⟨fresh, unique⟩ := List.nodup_cons.mp unique
      rw [lookup_cons_eq, List.mem_cons, Prod.mk.injEq]
      split
      · next same =>
        subst same
        constructor
        · intro found
          exact .inl ⟨rfl, (Option.some.inj found).symm⟩
        · rintro (⟨-, rfl⟩ | member)
          · rfl
          · exact absurd (List.mem_map_of_mem member) fresh
      · next different => simp [ih unique, different]

end Library
