import Mathlib.Data.List.Forall2

/-!
# Topic filters

Topics and filters as lists of levels. A filter has wildcards for one level
each, and may end with a wildcard for all the levels that are left.
-/

set_option autoImplicit false

namespace Library

def singleLevelWildcard : String := "+"

def multiLevelWildcard : String := "#"

def matchesLevels : List String → List String → Bool
  | [], topicLevels => topicLevels.isEmpty
  | level :: levels, [] => level = multiLevelWildcard && levels.isEmpty
  | level :: levels, topicLevel :: topicLevels =>
      level = multiLevelWildcard && levels.isEmpty ||
        (level = singleLevelWildcard || level = topicLevel) && matchesLevels levels topicLevels

/-- Topics of the broker itself. -/
def isReserved (topic : List String) : Bool :=
  topic.head?.any fun level => level.toList.head? = some '$'

def startsWithWildcard (filter : List String) : Bool :=
  filter.head?.any fun level => level = singleLevelWildcard || level = multiLevelWildcard

/-- A reserved topic is not matched by a wildcard at its first level. -/
def matchesFilter (filter topic : List String) : Bool :=
  matchesLevels filter topic && !(startsWithWildcard filter && isReserved topic)

def LevelMatches (level topicLevel : String) : Prop :=
  level = singleLevelWildcard ∨ level = topicLevel

/-- Without the wildcard at the end, filters are matched level by level. -/
private theorem matchesLevels_iff {filter : List String} (levelwise : multiLevelWildcard ∉ filter)
    (topic : List String) :
    matchesLevels filter topic = true ↔ List.Forall₂ LevelMatches filter topic := by
  induction filter generalizing topic with
  | nil => cases topic <;> simp [matchesLevels]
  | cons level levels ih =>
      have different : level ≠ multiLevelWildcard := fun same =>
        levelwise (same ▸ List.mem_cons_self)
      cases topic with
      | nil => simp [matchesLevels, different]
      | cons topicLevel topicLevels =>
          have rest := ih (fun member => levelwise (List.mem_cons_of_mem _ member)) topicLevels
          simp [matchesLevels, different, LevelMatches, rest]

theorem matchesFilter_of_levels {filter topic : List String}
    (levelwise : multiLevelWildcard ∉ filter) (notReserved : isReserved topic = false)
    (levels : List.Forall₂ LevelMatches filter topic) : matchesFilter filter topic = true := by
  rw [matchesFilter, (matchesLevels_iff levelwise topic).mpr levels, notReserved, Bool.and_false]
  rfl

theorem forall₂_levelMatches_refl (levels : List String) :
    List.Forall₂ LevelMatches levels levels :=
  List.forall₂_same.mpr fun _ _ => .inr rfl

/-- A level may be replaced on both sides. -/
theorem forall₂_set {Left Right : Type} {related : Left → Right → Prop} {lefts : List Left}
    {rights : List Right} (all : List.Forall₂ related lefts rights) (index : Nat) {left : Left}
    {right : Right} (replaced : related left right) :
    List.Forall₂ related (lefts.set index left) (rights.set index right) := by
  induction all generalizing index with
  | nil => exact .nil
  | cons first rest ih =>
      cases index with
      | zero => exact .cons replaced rest
      | succ index => exact .cons first (ih index)

end Library
