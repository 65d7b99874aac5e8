import Mathlib.Algebra.GroupWithZero.Nat
import Mathlib.Data.List.Induction
import Vda5050.Library.EntryList
import Vda5050.Library.KeyedList
import Vda5050.Types

/-!
# The map of AGV identifiers

Nested maps with a level for the manufacturer and one for the serial number,
compared with a single map that keeps its keys in insertion order. Both hold
the same entries. They are iterated in the same order as long as an AGV is
added behind all others of its manufacturer only if these come last.
-/

set_option autoImplicit false

namespace Vda5050

open Library

/-- `_map`, whose inner maps are deleted together with their last entry. -/
structure AgvIdMap (Value : Type) where
  map : List (String × List (String × Value)) := []
  unique : (map.map (·.1)).Nodup := by simp
  filled : ∀ entry ∈ map, entry.2 ≠ [] := by simp
  distinct : ∀ entry ∈ map, (entry.2.map (·.1)).Nodup := by simp

namespace AgvIdMap

variable {Value : Type} (m : AgvIdMap Value)

def size : Nat := (m.map.map (·.2.length)).sum

def get (agvId : AgvId) : Option Value :=
  (m.map.lookup agvId.manufacturer).bind (·.lookup agvId.serialNumber)

/-- The inner map of a manufacturer, a new one if there is none. -/
def serialNumbers (manufacturer : String) : List (String × Value) :=
  (m.map.lookup manufacturer).getD []

private theorem distinct_serialNumbers (manufacturer : String) :
    ((m.serialNumbers manufacturer).map (·.1)).Nodup := by
  unfold serialNumbers
  cases found : m.map.lookup manufacturer with
  | none => simp
  | some serialNumbers =>
      exact m.distinct _ ((lookup_eq_some_iff m.unique _ _).mp found)

def set (agvId : AgvId) (value : Value) : AgvIdMap Value where
  map := put agvId.manufacturer
    (put agvId.serialNumber value (m.serialNumbers agvId.manufacturer)) m.map
  unique := nodup_keys_put _ m.unique
  filled := by
    intro entry member
    rcases mem_put member with rfl | known
    · unfold put
      split
      · next present =>
        intro none
        rw [List.map_eq_nil_iff.mp none] at present
        cases present
      · simp
    · exact m.filled entry known
  distinct := by
    intro entry member
    rcases mem_put member with rfl | known
    · exact nodup_keys_put value (m.distinct_serialNumbers agvId.manufacturer)
    · exact m.distinct entry known

/-- `delete`. The map of a manufacturer without entries is deleted, too. -/
def delete (agvId : AgvId) : AgvIdMap Value :=
  let remaining := (m.serialNumbers agvId.manufacturer).filter (·.1 ≠ agvId.serialNumber)
  if (m.map.lookup agvId.manufacturer).isNone then m
  else if empty : remaining = [] then
    { map := m.map.filter (·.1 ≠ agvId.manufacturer)
      unique := m.unique.sublist (List.filter_sublist.map _)
      filled := fun entry member => m.filled entry (List.mem_filter.mp member).1
      distinct := fun entry member => m.distinct entry (List.mem_filter.mp member).1 }
  else
    { map := put agvId.manufacturer remaining m.map
      unique := nodup_keys_put _ m.unique
      filled := by
        intro entry member
        rcases mem_put member with rfl | known
        · exact empty
        · exact m.filled entry known
      distinct := by
        intro entry member
        rcases mem_put member with rfl | known
        · exact (m.distinct_serialNumbers _).sublist (List.filter_sublist.map _)
        · exact m.distinct entry known }

def clear (_ : AgvIdMap Value) : AgvIdMap Value := {}

/-- The entries of the map of a manufacturer. -/
def entriesOf (entry : String × List (String × Value)) : List (AgvId × Value) :=
  entry.2.map fun found => ({ manufacturer := entry.1, serialNumber := found.1 }, found.2)

/-- `[Symbol.iterator]` -/
def entries : List (AgvId × Value) := m.map.flatMap entriesOf

/-! ## Calls -/

inductive Call (Value : Type) where
  | set (agvId : AgvId) (value : Value)
  | delete (agvId : AgvId)
  | clear

def perform (m : AgvIdMap Value) : Call Value → AgvIdMap Value
  | .set agvId value => m.set agvId value
  | .delete agvId => m.delete agvId
  | .clear => m.clear

/-- The map after a sequence of calls. -/
def after (calls : List (Call Value)) : AgvIdMap Value := calls.foldl perform {}

/-- What a call does to a single map in insertion order: an entry keeps its
place as long as it is present. -/
def performOnEntries (entries : List (AgvId × Value)) : Call Value → List (AgvId × Value)
  | .set agvId value => put agvId value entries
  | .delete agvId => entries.filter (·.1 ≠ agvId)
  | .clear => []

/-- The entries of a single map in insertion order after a sequence of calls. -/
def entriesAfter (calls : List (Call Value)) : List (AgvId × Value) :=
  calls.foldl performOnEntries []

/-- An AGV is only added if it is the first one of its manufacturer, or if the
map of its manufacturer is the last one. -/
def AddsLast (m : AgvIdMap Value) : Call Value → Prop
  | .set agvId _ =>
      (m.get agvId).isSome ∨ m.map.lookup agvId.manufacturer = none ∨
        m.map.getLast?.map (·.1) = some agvId.manufacturer
  | .delete _ | .clear => True

/-! ## Entries -/

variable {m} {agvId : AgvId} {value : Value}

private theorem manufacturer_of_mem {entry : String × List (String × Value)} {found : AgvId × Value}
    (member : found ∈ entriesOf entry) : found.1.manufacturer = entry.1 := by
  obtain ⟨_, -, rfl⟩ := List.mem_map.mp member
  rfl

private theorem mem_entriesOf {manufacturer : String} {serialNumbers : List (String × Value)} :
    (agvId, value) ∈ entriesOf (manufacturer, serialNumbers) ↔
      agvId.manufacturer = manufacturer ∧ (agvId.serialNumber, value) ∈ serialNumbers := by
  constructor
  · intro member
    obtain ⟨found, known, same⟩ := List.mem_map.mp member
    obtain ⟨rfl, rfl⟩ := Prod.mk.inj same
    exact ⟨rfl, known⟩
  · rintro ⟨rfl, known⟩
    exact List.mem_map.mpr ⟨_, known, rfl⟩

/-- The entries are the pairs found by `get`. -/
theorem mem_entries_iff : (agvId, value) ∈ m.entries ↔ m.get agvId = some value := by
  unfold entries get
  rw [List.mem_flatMap, Option.bind_eq_some_iff]
  constructor
  · rintro ⟨⟨manufacturer, serialNumbers⟩, known, member⟩
    obtain ⟨rfl, listed⟩ := mem_entriesOf.mp member
    exact ⟨serialNumbers, (lookup_eq_some_iff m.unique _ _).mpr known,
      (lookup_eq_some_iff (m.distinct _ known) _ _).mpr listed⟩
  · rintro ⟨serialNumbers, found, listed⟩
    have known := (lookup_eq_some_iff m.unique _ _).mp found
    exact ⟨_, known, mem_entriesOf.mpr
      ⟨rfl, (lookup_eq_some_iff (m.distinct _ known) _ _).mp listed⟩⟩

theorem nodup_entries (m : AgvIdMap Value) : (m.entries.map (·.1)).Nodup := by
  have keys : m.entries.map (·.1) = m.map.flatMap fun entry => (entriesOf entry).map (·.1) :=
    List.map_flatMap
  rw [keys, List.nodup_flatMap]
  constructor
  · intro entry member
    have serials := (m.distinct entry member).map
      (f := fun serialNumber => ({ manufacturer := entry.1, serialNumber } : AgvId))
      fun left right same => (AgvId.mk.inj same).2
    simpa only [entriesOf, List.map_map, Function.comp_def] using serials
  · refine (List.pairwise_map.mp m.unique).imp fun {left right} different => ?_
    apply List.disjoint_left.mpr
    intro agvId first second
    obtain ⟨_, here, rfl⟩ := List.mem_map.mp first
    obtain ⟨_, there, same⟩ := List.mem_map.mp second
    apply different
    rw [← manufacturer_of_mem here, ← same, manufacturer_of_mem there]

private theorem length_entries (m : AgvIdMap Value) : m.entries.length = m.size := by
  unfold entries size
  rw [List.length_flatMap]
  simp [entriesOf]

/-- The map of a manufacturer between those of the others. -/
private theorem split_of_lookup {manufacturer : String} {serialNumbers : List (String × Value)}
    (found : m.map.lookup manufacturer = some serialNumbers) :
    ∃ before behind, m.map = before ++ (manufacturer, serialNumbers) :: behind ∧
      (∀ other ∈ before, other.1 ≠ manufacturer) ∧ ∀ other ∈ behind, other.1 ≠ manufacturer :=
  split_of_mem (·.1) m.unique ((lookup_eq_some_iff m.unique _ _).mp found)

/-- The entries of other manufacturers are those of other AGVs. -/
private theorem ne_of_manufacturer {maps : List (String × List (String × Value))}
    (others : ∀ other ∈ maps, other.1 ≠ agvId.manufacturer) :
    ∀ entry ∈ maps.flatMap entriesOf, entry.1 ≠ agvId := by
  rintro entry member rfl
  obtain ⟨other, known, here⟩ := List.mem_flatMap.mp member
  exact others other known (manufacturer_of_mem here).symm

private theorem manufacturer_of_lookup_none {manufacturer : String}
    (absent : m.map.lookup manufacturer = none) : ∀ other ∈ m.map, other.1 ≠ manufacturer := by
  rintro other known rfl
  rw [(lookup_eq_some_iff m.unique _ _).mpr known] at absent
  cases absent

/-- Putting an entry into the map of its manufacturer. -/
private theorem entriesOf_put (agvId : AgvId) (value : Value)
    (serialNumbers : List (String × Value)) :
    entriesOf (agvId.manufacturer, put agvId.serialNumber value serialNumbers) =
      put agvId value (entriesOf (agvId.manufacturer, serialNumbers)) := by
  have same : ∀ found : String × Value,
      (({ manufacturer := agvId.manufacturer, serialNumber := found.1 } : AgvId) = agvId ↔
        found.1 = agvId.serialNumber) := by
    intro found
    cases agvId
    simp
  have known : ((entriesOf (agvId.manufacturer, serialNumbers)).any fun entry =>
      decide (entry.1 = agvId)) = serialNumbers.any fun found =>
        decide (found.1 = agvId.serialNumber) := by
    simp [entriesOf, Function.comp_def, same]
  unfold put
  rw [known]
  split
  · unfold entriesOf
    rw [List.map_map, List.map_map]
    refine List.map_congr_left fun found _ => ?_
    by_cases equal : found.1 = agvId.serialNumber <;> simp [equal, same]
  · simp [entriesOf]

/-- What `set` does to the entries. -/
private theorem entries_set (m : AgvIdMap Value) (agvId : AgvId) (value : Value) :
    (m.map.lookup agvId.manufacturer = none ∧
        (m.set agvId value).entries = m.entries ++ [(agvId, value)]) ∨
      ∃ serialNumbers before behind,
        m.map = before ++ (agvId.manufacturer, serialNumbers) :: behind ∧
        (∀ other ∈ before, other.1 ≠ agvId.manufacturer) ∧
        (∀ other ∈ behind, other.1 ≠ agvId.manufacturer) ∧
        (m.set agvId value).entries =
          before.flatMap entriesOf ++
            (put agvId value (entriesOf (agvId.manufacturer, serialNumbers)) ++
              behind.flatMap entriesOf) := by
  cases found : m.map.lookup agvId.manufacturer with
  | none =>
      refine .inl ⟨rfl, ?_⟩
      unfold set entries serialNumbers
      dsimp only
      rw [found, put_of_absent _ (manufacturer_of_lookup_none found), List.flatMap_append]
      rfl
  | some serialNumbers =>
      obtain ⟨before, behind, split, front, rear⟩ := split_of_lookup found
      refine .inr ⟨serialNumbers, before, behind, split, front, rear, ?_⟩
      have replaced : ∀ updated : List (String × Value),
          put agvId.manufacturer updated [(agvId.manufacturer, serialNumbers)] =
            [(agvId.manufacturer, updated)] := fun updated => by simp [put]
      unfold set entries AgvIdMap.serialNumbers
      dsimp only
      rw [found, Option.getD_some, split, ← List.singleton_append,
        put_around _ front rear ⟨_, List.mem_singleton_self _, rfl⟩, replaced]
      simp [entriesOf_put]

private theorem entriesOf_filter (agvId : AgvId) (serialNumbers : List (String × Value)) :
    entriesOf (agvId.manufacturer, serialNumbers.filter (·.1 ≠ agvId.serialNumber)) =
      (entriesOf (agvId.manufacturer, serialNumbers)).filter (·.1 ≠ agvId) := by
  unfold entriesOf
  rw [List.filter_map]
  congr 1
  refine List.filter_congr fun found _ => ?_
  cases agvId
  simp

/-- `delete` removes the entry of the AGV, if there is one. -/
private theorem entries_delete (m : AgvIdMap Value) (agvId : AgvId) :
    (m.delete agvId).entries = m.entries.filter (·.1 ≠ agvId) := by
  have kept : ∀ maps : List (String × List (String × Value)),
      (∀ other ∈ maps, other.1 ≠ agvId.manufacturer) →
      (maps.flatMap entriesOf).filter (·.1 ≠ agvId) = maps.flatMap entriesOf := by
    intro maps others
    refine List.filter_eq_self.mpr fun entry member => ?_
    simpa using ne_of_manufacturer others entry member
  unfold delete
  cases found : m.map.lookup agvId.manufacturer with
  | none =>
      exact (kept m.map (manufacturer_of_lookup_none found)).symm
  | some serialNumbers =>
      obtain ⟨before, behind, split, front, rear⟩ := split_of_lookup found
      have entries : m.entries.filter (·.1 ≠ agvId) =
          before.flatMap entriesOf ++
            (entriesOf (agvId.manufacturer,
              serialNumbers.filter (·.1 ≠ agvId.serialNumber)) ++ behind.flatMap entriesOf) := by
        unfold AgvIdMap.entries
        rw [split, List.flatMap_append, List.flatMap_cons, List.filter_append, List.filter_append,
          kept before front, kept behind rear, entriesOf_filter]
      have present : m.serialNumbers agvId.manufacturer = serialNumbers := by
        simp [AgvIdMap.serialNumbers, found]
      rw [entries]
      simp only [present, Option.isNone_some, Bool.false_eq_true, if_false]
      split
      · next none =>
        have filtered : (before ++ (agvId.manufacturer, serialNumbers) :: behind).filter
            (·.1 ≠ agvId.manufacturer) = before ++ behind := by
          rw [List.filter_append, List.filter_cons_of_neg (by simp),
            List.filter_eq_self.mpr (by simpa using front),
            List.filter_eq_self.mpr (by simpa using rear)]
        unfold AgvIdMap.entries
        dsimp only
        rw [none, split, filtered, List.flatMap_append]
        rfl
      · have replaced : ∀ updated : List (String × Value),
            put agvId.manufacturer updated [(agvId.manufacturer, serialNumbers)] =
              [(agvId.manufacturer, updated)] := fun updated => by simp [put]
        unfold AgvIdMap.entries
        dsimp only
        rw [split, ← List.singleton_append,
          put_around _ front rear ⟨_, List.mem_singleton_self _, rfl⟩, replaced]
        simp

/-! ## The order of the entries -/

/-- An added entry stands behind those of its manufacturer. -/
private theorem entries_set_perm (m : AgvIdMap Value) (agvId : AgvId) (value : Value) :
    (m.set agvId value).entries.Perm (put agvId value m.entries) := by
  rcases entries_set m agvId value with
    ⟨absent, entries⟩ | ⟨serialNumbers, before, behind, split, front, rear, entries⟩
  · have others : ∀ entry ∈ m.entries, entry.1 ≠ agvId :=
      ne_of_manufacturer (manufacturer_of_lookup_none absent)
    rw [entries, put_of_absent value others]
  · have whole : m.entries = before.flatMap entriesOf ++
        (entriesOf (agvId.manufacturer, serialNumbers) ++ behind.flatMap entriesOf) := by
      unfold AgvIdMap.entries
      rw [split, List.flatMap_append, List.flatMap_cons]
    have front := ne_of_manufacturer front
    have rear := ne_of_manufacturer rear
    rw [entries, whole]
    by_cases known : ∃ entry ∈ entriesOf (agvId.manufacturer, serialNumbers), entry.1 = agvId
    · rw [put_around value front rear known]
    · have absent : ∀ entry ∈ entriesOf (agvId.manufacturer, serialNumbers), entry.1 ≠ agvId :=
        fun entry member same => known ⟨entry, member, same⟩
      have nowhere : ∀ entry ∈ before.flatMap entriesOf ++
          (entriesOf (agvId.manufacturer, serialNumbers) ++ behind.flatMap entriesOf),
          entry.1 ≠ agvId := by
        intro entry member
        rcases List.mem_append.mp member with earlier | member
        · exact front entry earlier
        · rcases List.mem_append.mp member with here | later
          · exact absent entry here
          · exact rear entry later
      rw [put_of_absent value absent, put_of_absent value nowhere, List.append_assoc,
        List.append_assoc, List.append_assoc]
      exact ((List.perm_append_comm).append_left _).append_left _

/-- The entries come in the order of a single map if the call only adds last. -/
private theorem entries_set_eq_iff (m : AgvIdMap Value) (agvId : AgvId) (value : Value) :
    (m.set agvId value).entries = put agvId value m.entries ↔ AddsLast m (.set agvId value) := by
  unfold AddsLast
  dsimp only
  rcases entries_set m agvId value with
    ⟨absent, entries⟩ | ⟨serialNumbers, before, behind, split, front, rear, entries⟩
  · have others : ∀ entry ∈ m.entries, entry.1 ≠ agvId :=
      ne_of_manufacturer (manufacturer_of_lookup_none absent)
    rw [entries, put_of_absent value others]
    simp [absent]
  · have whole : m.entries = before.flatMap entriesOf ++
        (entriesOf (agvId.manufacturer, serialNumbers) ++ behind.flatMap entriesOf) := by
      unfold AgvIdMap.entries
      rw [split, List.flatMap_append, List.flatMap_cons]
    have earlier := ne_of_manufacturer front
    have later := ne_of_manufacturer rear
    by_cases known : ∃ entry ∈ entriesOf (agvId.manufacturer, serialNumbers), entry.1 = agvId
    · rw [entries, whole, put_around value earlier later known]
      obtain ⟨⟨_, old⟩, member, rfl⟩ := known
      have present : m.get _ = some old := mem_entries_iff.mp (by
        rw [whole]
        exact List.mem_append_right _ (List.mem_append_left _ member))
      simp [present]
    · have absent : ∀ entry ∈ entriesOf (agvId.manufacturer, serialNumbers), entry.1 ≠ agvId :=
        fun entry member same => known ⟨entry, member, same⟩
      have nowhere : ∀ entry ∈ m.entries, entry.1 ≠ agvId := by
        intro entry member
        rw [whole] at member
        rcases List.mem_append.mp member with earlier' | member
        · exact earlier entry earlier'
        · rcases List.mem_append.mp member with here | later'
          · exact absent entry here
          · exact later entry later'
      have missing : m.get agvId = none := by
        cases found : m.get agvId with
        | none => rfl
        | some old => exact absurd rfl (nowhere _ (mem_entries_iff.mpr found))
      have listed : m.map.lookup agvId.manufacturer ≠ none := fun none =>
        manufacturer_of_lookup_none none (agvId.manufacturer, serialNumbers) (by simp [split]) rfl
      rw [entries, put_of_absent value absent, put_of_absent value nowhere, whole, missing]
      simp only [Option.isSome_none, Bool.false_eq_true, listed, false_or, List.append_assoc,
        List.append_cancel_left_eq]
      rw [split]
      cases behind with
      | nil => simp
      | cons next behind =>
          -- the first entry behind the new one belongs to another manufacturer
          have other := rear next List.mem_cons_self
          have last : ((before ++ (agvId.manufacturer, serialNumbers) :: next :: behind).getLast?.map
              (·.1)) ≠ some agvId.manufacturer := by
            intro same
            obtain ⟨entry, found, equal⟩ := Option.map_eq_some_iff.mp same
            rw [List.getLast?_append, List.getLast?_cons_cons] at found
            have member := List.mem_of_getLast? (by simpa using found)
            exact rear entry member equal
          simp only [last, iff_false]
          intro same
          have nonempty : entriesOf next ≠ [] := by
            have filled := m.filled next (by simp [split])
            simpa [entriesOf] using filled
          obtain ⟨first, rest, head⟩ := List.exists_cons_of_ne_nil nonempty
          rw [List.flatMap_cons, head, List.cons_append, List.cons_append, List.cons_append,
            List.nil_append] at same
          have equal := (List.cons.inj same).1
          apply later first
          · rw [List.flatMap_cons, head]
            exact List.mem_append_left _ List.mem_cons_self
          · rw [← equal]

/-! ## Sequences of calls -/

private theorem perform_perm (m : AgvIdMap Value) (call : Call Value) :
    (m.perform call).entries.Perm (performOnEntries m.entries call) := by
  cases call with
  | set agvId value => exact entries_set_perm m agvId value
  | delete agvId => exact .of_eq (entries_delete m agvId)
  | clear => exact .of_eq rfl

private theorem perform_eq_iff (m : AgvIdMap Value) (call : Call Value) :
    (m.perform call).entries = performOnEntries m.entries call ↔ AddsLast m call := by
  cases call with
  | set agvId value => exact entries_set_eq_iff m agvId value
  | delete agvId => exact iff_of_true (entries_delete m agvId) trivial
  | clear => exact iff_of_true rfl trivial

private theorem performOnEntries_perm {entries others : List (AgvId × Value)}
    (perm : entries.Perm others) (call : Call Value) :
    (performOnEntries entries call).Perm (performOnEntries others call) := by
  cases call with
  | set agvId value => exact put_perm value perm
  | delete agvId => exact perm.filter _
  | clear => exact .refl _

private theorem after_append (calls : List (Call Value)) (call : Call Value) :
    after (calls ++ [call]) = (after calls).perform call := by
  simp [after]

private theorem entriesAfter_append (calls : List (Call Value)) (call : Call Value) :
    entriesAfter (calls ++ [call]) = performOnEntries (entriesAfter calls) call := by
  simp [entriesAfter]

/-- The nested maps hold the entries of the single map. -/
private theorem entries_perm (calls : List (Call Value)) :
    (after calls).entries.Perm (entriesAfter calls) := by
  induction calls using List.reverseRecOn with
  | nil => exact .refl _
  | append_singleton calls call ih =>
      rw [after_append, entriesAfter_append]
      exact (perform_perm _ call).trans (performOnEntries_perm ih call)

/-- Calls that only add last keep the insertion order, and no others do. -/
private theorem entries_eq_iff (calls : List (Call Value)) :
    (∀ past, past <+: calls → (after past).entries = entriesAfter past) ↔
      ∀ past call, past ++ [call] <+: calls → AddsLast (after past) call := by
  constructor
  · intro ordered past call begins
    have before := ordered past ((List.prefix_append past [call]).trans begins)
    have next := ordered (past ++ [call]) begins
    rw [after_append, entriesAfter_append, ← before] at next
    exact (perform_eq_iff _ call).mp next
  · intro addsLast past begins
    induction past using List.reverseRecOn with
    | nil => rfl
    | append_singleton past call ih =>
        rw [after_append, entriesAfter_append,
          ← ih ((List.prefix_append past [call]).trans begins)]
        exact (perform_eq_iff _ call).mpr (addsLast past call begins)

/-- The nested maps behave as a single map keyed by the pair of manufacturer and
serial number. They are iterated in insertion order all along if and only if
every AGV added is the first one of its manufacturer or added to the last map. -/
theorem agvIdMap_insertionOrder (calls : List (Call Value)) :
    (∀ agvId, (after calls).get agvId = (entriesAfter calls).lookup agvId) ∧
      (after calls).size = (entriesAfter calls).length ∧
      (after calls).entries.Perm (entriesAfter calls) ∧
      ((after calls).entries.map (·.1)).Nodup ∧
      ((∀ past, past <+: calls → (after past).entries = entriesAfter past) ↔
        ∀ past call, past ++ [call] <+: calls → AddsLast (after past) call) := by
  have perm := entries_perm calls
  have unique := nodup_entries (after calls)
  refine ⟨fun agvId => ?_, ?_, perm, unique, entries_eq_iff calls⟩
  · refine Option.ext fun value => ?_
    rw [← mem_entries_iff, perm.mem_iff]
    exact (lookup_eq_some_iff ((perm.map _).nodup unique) agvId value).symm
  · rw [← length_entries, perm.length_eq]

/-- The second AGV of a manufacturer overtakes that of another manufacturer. -/
theorem not_agvIdMap_insertionOrder :
    ¬ ∀ calls : List (Call Nat), (after calls).entries = entriesAfter calls := by
  intro ordered
  have overtaken := ordered
    [.set { manufacturer := "A", serialNumber := "1" } 1,
      .set { manufacturer := "B", serialNumber := "1" } 2,
      .set { manufacturer := "A", serialNumber := "2" } 3]
  revert overtaken
  decide

end AgvIdMap

end Vda5050
