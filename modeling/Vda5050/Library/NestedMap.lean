import Vda5050.Library.EntryList

/-!
# Maps nested to a fixed depth

A path has one key for each level. The leaves are found along a single path,
or along all paths that agree with given keys up to wildcards.
-/

set_option autoImplicit false

namespace Library

@[reducible] def NestedMap (Key Leaf : Type) : Nat → Type
  | 0 => Leaf
  | depth + 1 => List (Key × NestedMap Key Leaf depth)

@[reducible] def KeyPath (Key : Type) : Nat → Type
  | 0 => Unit
  | depth + 1 => Key × KeyPath Key depth

instance KeyPath.decidableEq (Key : Type) [DecidableEq Key] :
    (depth : Nat) → DecidableEq (KeyPath Key depth)
  | 0 => inferInstanceAs (DecidableEq Unit)
  | depth + 1 =>
      have := KeyPath.decidableEq Key depth
      inferInstanceAs (DecidableEq (Key × KeyPath Key depth))

namespace NestedMap

variable {Key Leaf : Type}

/-- The map without entries. At the lowest level this is the given leaf. -/
def empty (leaf : Leaf) : (depth : Nat) → NestedMap Key Leaf depth
  | 0 => leaf
  | _ + 1 => []

/-- The keys of every level are distinct. -/
def Keyed : {depth : Nat} → NestedMap Key Leaf depth → Prop
  | 0, _ => True
  | _ + 1, entries => (entries.map (·.1)).Nodup ∧ ∀ entry ∈ entries, Keyed entry.2

theorem keyed_empty (leaf : Leaf) (depth : Nat) :
    (empty leaf depth : NestedMap Key Leaf depth).Keyed := by
  cases depth with
  | zero => trivial
  | succ depth => exact ⟨List.nodup_nil, by simp [empty]⟩

/-- All leaves with their paths, level by level in the order of the entries. -/
def leaves : {depth : Nat} → NestedMap Key Leaf depth → List (KeyPath Key depth × Leaf)
  | 0, leaf => [((), leaf)]
  | _ + 1, entries => entries.flatMap fun entry =>
      (leaves entry.2).map fun found => ((entry.1, found.1), found.2)

theorem nodup_leaves {depth : Nat} {map : NestedMap Key Leaf depth} (keyed : map.Keyed) :
    (map.leaves.map (·.1)).Nodup := by
  induction depth with
  | zero => simp [leaves]
  | succ depth ih =>
      obtain ⟨unique, below⟩ := keyed
      have paths : (leaves map).map (·.1) = List.flatMap
          (fun entry => entry.2.leaves.map fun found => (entry.1, found.1)) map := by
        rw [leaves, List.map_flatMap]
        simp only [List.map_map, Function.comp_def]
      rw [paths, List.nodup_flatMap]
      constructor
      · intro entry member
        have child := (ih (below entry member)).map
          (f := fun path => (entry.1, path)) fun left right same => (Prod.mk.inj same).2
        simpa only [List.map_map, Function.comp_def] using child
      · refine (List.pairwise_map.mp unique).imp fun {left right} different => ?_
        apply List.disjoint_left.mpr
        rintro path first second
        obtain ⟨_, -, rfl⟩ := List.mem_map.mp first
        obtain ⟨_, -, same⟩ := List.mem_map.mp second
        exact different (Prod.mk.inj same).1.symm

/-- The paths that agree with a path up to wildcards. -/
def patterns (wildcard : Key) : {depth : Nat} → KeyPath Key depth → List (KeyPath Key depth)
  | 0, path => [path]
  | _ + 1, (key, path) =>
      (patterns wildcard path).map (key, ·) ++ (patterns wildcard path).map (wildcard, ·)

theorem mem_patterns_iff (wildcard : Key) {depth : Nat} (path other : KeyPath Key (depth + 1)) :
    other ∈ patterns wildcard path ↔
      (other.1 = path.1 ∨ other.1 = wildcard) ∧ other.2 ∈ patterns wildcard path.2 := by
  obtain ⟨key, path⟩ := path
  obtain ⟨otherKey, other⟩ := other
  simp only [patterns, List.mem_append, List.mem_map, Prod.mk.injEq]
  constructor
  · rintro (⟨found, member, rfl, rfl⟩ | ⟨found, member, rfl, rfl⟩)
    · exact ⟨.inl rfl, member⟩
    · exact ⟨.inr rfl, member⟩
  · rintro ⟨rfl | rfl, member⟩
    · exact .inl ⟨other, member, rfl, rfl⟩
    · exact .inr ⟨other, member, rfl, rfl⟩

variable [BEq Key]

/-- The leaf found along a path. -/
def leafAt : {depth : Nat} → NestedMap Key Leaf depth → KeyPath Key depth → Option Leaf
  | 0, leaf, _ => some leaf
  | _ + 1, entries, (key, path) => (entries.lookup key).bind (leafAt · path)

private theorem leafAt_succ {depth : Nat} (map : NestedMap Key Leaf (depth + 1)) (key : Key)
    (path : KeyPath Key depth) :
    map.leafAt (key, path) = (List.lookup key map).bind (leafAt · path) := rfl

/-- The leaves below the keys of a path or a wildcard at each level. -/
def matching (wildcard : Key) :
    {depth : Nat} → NestedMap Key Leaf depth → KeyPath Key depth → List Leaf
  | 0, leaf, _ => [leaf]
  | _ + 1, entries, (key, path) =>
      (entries.lookup key).elim [] (matching wildcard · path) ++
        (entries.lookup wildcard).elim [] (matching wildcard · path)

theorem matching_eq (wildcard : Key) {depth : Nat} (map : NestedMap Key Leaf depth)
    (path : KeyPath Key depth) :
    map.matching wildcard path = (patterns wildcard path).filterMap map.leafAt := by
  induction depth with
  | zero => rfl
  | succ depth ih =>
      obtain ⟨key, path⟩ := path
      have below : ∀ key : Key, (List.lookup key map).elim [] (matching wildcard · path) =
          ((patterns wildcard path).map ((key, ·) : KeyPath Key depth → _)).filterMap
            map.leafAt := by
        intro key
        rw [List.filterMap_map]
        cases found : List.lookup key map with
        | none =>
            refine (List.filterMap_eq_nil_iff.mpr fun other _ => ?_).symm
            simp [leafAt_succ, found]
        | some child =>
            refine (ih child path).trans (List.filterMap_congr fun other _ => ?_)
            simp [leafAt_succ, found]
      rw [matching, patterns, List.filterMap_append, below, below]

variable [DecidableEq Key]

/-- Change the leaf at the end of a path. Missing levels are added, with
`initial` as the new leaf. -/
def update (initial : Leaf) (change : Leaf → Leaf) :
    {depth : Nat} → NestedMap Key Leaf depth → KeyPath Key depth → NestedMap Key Leaf depth
  | 0, leaf, _ => change leaf
  | depth + 1, entries, (key, path) =>
      put key (update initial change ((entries.lookup key).getD (empty initial depth)) path) entries

private theorem update_succ (initial : Leaf) (change : Leaf → Leaf) {depth : Nat}
    (map : NestedMap Key Leaf (depth + 1)) (key : Key) (path : KeyPath Key depth) :
    map.update initial change (key, path) =
      put key (update initial change ((List.lookup key map).getD (empty initial depth)) path)
        map := rfl

variable [LawfulBEq Key]

theorem keyed_update (initial : Leaf) (change : Leaf → Leaf) {depth : Nat}
    {map : NestedMap Key Leaf depth} (keyed : map.Keyed) (path : KeyPath Key depth) :
    (map.update initial change path).Keyed := by
  induction depth with
  | zero => trivial
  | succ depth ih =>
      obtain ⟨key, path⟩ := path
      refine ⟨nodup_keys_put _ keyed.1, fun entry member => ?_⟩
      rcases mem_put member with rfl | known
      · apply ih
        cases found : List.lookup key map with
        | none => exact keyed_empty initial depth
        | some child => exact keyed.2 _ ((lookup_eq_some_iff keyed.1 _ _).mp found)
      · exact keyed.2 entry known

/-- The leaf at the end of the path is changed, and no other. -/
theorem leafAt_update (initial : Leaf) (change : Leaf → Leaf) {depth : Nat}
    (map : NestedMap Key Leaf depth) (path other : KeyPath Key depth) :
    (map.update initial change path).leafAt other =
      if other = path then some (change ((map.leafAt path).getD initial))
      else map.leafAt other := by
  induction depth with
  | zero => exact (if_pos rfl).symm
  | succ depth ih =>
      obtain ⟨key, path⟩ := path
      obtain ⟨otherKey, other⟩ := other
      have split : ((otherKey, other) : KeyPath Key (depth + 1)) = (key, path) ↔
          otherKey = key ∧ other = path := Prod.mk.injEq .. ▸ Iff.rfl
      rw [update_succ, leafAt_succ, lookup_put]
      by_cases same : otherKey = key
      · subst same
        rw [if_pos rfl, Option.bind_some, ih, leafAt_succ, leafAt_succ]
        by_cases ends : other = path
        · rw [if_pos ends, if_pos (split.mpr ⟨rfl, ends⟩)]
          cases List.lookup otherKey map with
          | none => cases depth <;> rfl
          | some child => rfl
        · rw [if_neg ends, if_neg fun equal => ends (split.mp equal).2]
          cases List.lookup otherKey map with
          | none =>
              cases depth with
              | zero => exact absurd rfl ends
              | succ depth => rfl
          | some child => rfl
      · rw [if_neg same, if_neg fun equal => same (split.mp equal).1]
        rfl

/-- The leaves listed are those found along their paths. -/
theorem mem_leaves_iff {depth : Nat} {map : NestedMap Key Leaf depth} (keyed : map.Keyed)
    (path : KeyPath Key depth) (leaf : Leaf) :
    (path, leaf) ∈ map.leaves ↔ map.leafAt path = some leaf := by
  induction depth with
  | zero => simp [leaves, leafAt, eq_comm]
  | succ depth ih =>
      obtain ⟨key, path⟩ := path
      rw [leafAt_succ, leaves, List.mem_flatMap]
      constructor
      · rintro ⟨entry, member, below⟩
        obtain ⟨⟨other, found⟩, included, same⟩ := List.mem_map.mp below
        simp only [Prod.mk.injEq] at same
        obtain ⟨⟨rfl, rfl⟩, rfl⟩ := same
        rw [(lookup_eq_some_iff keyed.1 _ _).mpr member, Option.bind_some]
        exact (ih (keyed.2 entry member) other).mp included
      · intro found
        obtain ⟨child, present, below⟩ := Option.bind_eq_some_iff.mp found
        have member := (lookup_eq_some_iff keyed.1 _ _).mp present
        exact ⟨(key, child), member,
          List.mem_map.mpr ⟨(path, leaf), (ih (keyed.2 _ member) path).mpr below, rfl⟩⟩

end NestedMap

end Library
