import Mathlib.Data.List.Basic

/-!
# Schemas

A schema lists rules for a structured value, which are checked one after the
other up to the first one violated. A violation is located by the keywords that
lead to the rule and by the steps that lead to the part of the value.
-/

set_option autoImplicit false

namespace Library

/-- How the properties and the items of a value are read. -/
structure ValueReader (Value : Type) where
  property? : String → Value → Option Value
  items : Value → List Value

inductive Rule (Value : Type) where
  | check (keyword : String) (test : Value → Bool)
  | required (key : String)
  | property (key : String) (rules : List (Rule Value))
  | items (rules : List (Rule Value))
  | ref (rules : List (Rule Value))
  | allOf (index : Nat) (rules : List (Rule Value))

/-- A step into a value, or into a schema that is referred to and stays at the value. -/
inductive PathStep where
  | property (key : String)
  | item (index : Nat)
  | ref
  deriving DecidableEq, Repr

structure Violation where
  keywords : List String
  path : List PathStep
  deriving DecidableEq, Repr

namespace Violation

/-- A violation found further inside. -/
def within (keywords : List String) (path : List PathStep) (violation : Violation) : Violation where
  keywords := keywords ++ violation.keywords
  path := path ++ violation.path

/-! ## Texts of locations -/

def keywordLocation (violation : Violation) : String :=
  violation.keywords.foldl (fun text keyword => text ++ "/" ++ keyword) "#"

/-- A location as far as it is rendered, and the keys behind it. An index behind keys that
follow another index is rendered without the slash in front of the first key. -/
structure Location where
  text : String := "#"
  keys : List String := []
  indexed : Bool := false

namespace Location

variable (location : Location)

def render : String := location.keys.foldl (fun text key => text ++ "/" ++ key) location.text

def step : PathStep → Location
  | .property key => { location with keys := location.keys ++ [key] }
  | .item index =>
      { text :=
          (if location.indexed && !location.keys.isEmpty then
            location.text ++ "/".intercalate location.keys
          else location.render) ++ "/" ++ toString index
        indexed := true }
  | .ref => { text := location.render }

end Location

def instanceLocation (violation : Violation) : String :=
  (violation.path.foldl Location.step {}).render

end Violation

namespace Rule

variable {Value : Type} (reader : ValueReader Value)

/-! ## Validation -/

mutual

/-- The first violation of the rules, in their order. -/
def validate (value : Value) : List (Rule Value) → Option Violation
  | [] => none
  | rule :: rules => (rule.violation value).or (validate value rules)

def violation (value : Value) : Rule Value → Option Violation
  | .check keyword test => if test value then none else some ⟨[keyword], []⟩
  | .required key =>
      if (reader.property? key value).isSome then none
      else some ⟨["required"], [.property key]⟩
  | .property key rules =>
      (reader.property? key value).bind fun part =>
        (validate part rules).map (·.within ["properties", key] [.property key])
  | .items rules =>
      (reader.items value).zipIdx.findSome? fun entry =>
        (validate entry.1 rules).map (·.within ["items"] [.item entry.2])
  | .ref rules => (validate value rules).map (·.within ["$ref"] [.ref])
  | .allOf index rules => (validate value rules).map (·.within ["allOf", toString index] [])

end

/-! ## What the rules mean -/

mutual

def Conforms (value : Value) : List (Rule Value) → Prop
  | [] => True
  | rule :: rules => rule.Holds value ∧ Conforms value rules

def Holds (value : Value) : Rule Value → Prop
  | .check _ test => test value = true
  | .required key => (reader.property? key value).isSome = true
  | .property key rules => ∀ part, reader.property? key value = some part → Conforms part rules
  | .items rules => ∀ item ∈ reader.items value, Conforms item rules
  | .ref rules | .allOf _ rules => Conforms value rules

end

/-- A rule that is violated, at the place of the violation. -/
inductive Violates : Value → List (Rule Value) → Violation → Prop where
  | check {value : Value} {rules : List (Rule Value)} {keyword : String} {test : Value → Bool} :
      .check keyword test ∈ rules → test value = false → Violates value rules ⟨[keyword], []⟩
  | required {value : Value} {rules : List (Rule Value)} {key : String} :
      .required key ∈ rules → reader.property? key value = none →
      Violates value rules ⟨["required"], [.property key]⟩
  | property {value part : Value} {rules inner : List (Rule Value)} {key : String}
      {violation : Violation} :
      .property key inner ∈ rules → reader.property? key value = some part →
      Violates part inner violation →
      Violates value rules (violation.within ["properties", key] [.property key])
  | items {value item : Value} {rules inner : List (Rule Value)} {index : Nat}
      {violation : Violation} :
      .items inner ∈ rules → (reader.items value)[index]? = some item →
      Violates item inner violation →
      Violates value rules (violation.within ["items"] [.item index])
  | ref {value : Value} {rules inner : List (Rule Value)} {violation : Violation} :
      .ref inner ∈ rules → Violates value inner violation →
      Violates value rules (violation.within ["$ref"] [.ref])
  | allOf {value : Value} {rules inner : List (Rule Value)} {index : Nat} {violation : Violation} :
      .allOf index inner ∈ rules → Violates value inner violation →
      Violates value rules (violation.within ["allOf", toString index] [])

variable {reader}

theorem Violates.mono {value : Value} {rules more : List (Rule Value)} {violation : Violation}
    (violates : Violates reader value rules violation) (subset : rules ⊆ more) :
    Violates reader value more violation := by
  cases violates with
  | check member fails => exact .check (subset member) fails
  | required member absent => exact .required (subset member) absent
  | property member present inner => exact .property (subset member) present inner
  | items member present inner => exact .items (subset member) present inner
  | ref member inner => exact .ref (subset member) inner
  | allOf member inner => exact .allOf (subset member) inner

/-! ## Validation decides conformance -/

mutual

theorem validate_eq_none_iff (value : Value) :
    (rules : List (Rule Value)) →
      (validate reader value rules = none ↔ Conforms reader value rules)
  | [] => by simp [validate, Conforms]
  | rule :: rules => by
      rw [validate, Conforms, Option.or_eq_none_iff, violation_eq_none_iff value rule,
        validate_eq_none_iff value rules]

private theorem violation_eq_none_iff (value : Value) :
    (rule : Rule Value) → (rule.violation reader value = none ↔ rule.Holds reader value)
  | .check keyword test => by simp [violation, Holds]
  | .required key => by simp [violation, Holds, Option.isSome_iff_ne_none]
  | .property key rules => by
      simp only [violation, Holds, Option.bind_eq_none_iff, Option.map_eq_none_iff]
      exact forall_congr' fun part => imp_congr_right fun _ => validate_eq_none_iff part rules
  | .items rules => by
      have items := fun item => validate_eq_none_iff item rules
      simp only [violation, Holds, List.findSome?_eq_none_iff, Option.map_eq_none_iff]
      constructor
      · intro none item member
        obtain ⟨index, bound, rfl⟩ := List.mem_iff_getElem.mp member
        exact (items _).mp (none (_, index) (List.mem_zipIdx_iff_getElem?.mpr (by simp [bound])))
      · intro holds entry member
        exact (items _).mpr (holds _ (List.fst_mem_of_mem_zipIdx member))
  | .ref rules => by
      rw [violation, Holds, Option.map_eq_none_iff, validate_eq_none_iff value rules]
  | .allOf index rules => by
      rw [violation, Holds, Option.map_eq_none_iff, validate_eq_none_iff value rules]

end

/-! ## Violations are located correctly -/

mutual

theorem violates_of_validate (value : Value) :
    (rules : List (Rule Value)) → {violation : Violation} →
      validate reader value rules = some violation → Violates reader value rules violation
  | [], _, failed => by simp [validate] at failed
  | rule :: rules, _, failed => by
      rw [validate] at failed
      rcases Option.or_eq_some_iff.mp failed with first | ⟨-, later⟩
      · exact (violates_of_violation value rule first).mono (by simp)
      · exact (violates_of_validate value rules later).mono (List.subset_cons_self _ _)

private theorem violates_of_violation (value : Value) :
    (rule : Rule Value) → {violation : Violation} →
      rule.violation reader value = some violation → Violates reader value [rule] violation
  | .check keyword test, _, failed => by
      rw [violation] at failed
      split at failed
      · cases failed
      · next fails =>
        cases failed
        exact .check (List.mem_singleton_self _) (by simpa using fails)
  | .required key, _, failed => by
      rw [violation] at failed
      split at failed
      · cases failed
      · next absent =>
        cases failed
        exact .required (by simp) (by simpa using absent)
  | .property key rules, _, failed => by
      rw [violation] at failed
      obtain ⟨part, present, failed⟩ := Option.bind_eq_some_iff.mp failed
      obtain ⟨inner, found, rfl⟩ := Option.map_eq_some_iff.mp failed
      exact .property (by simp) present (violates_of_validate part rules found)
  | .items rules, _, failed => by
      rw [violation] at failed
      obtain ⟨entry, member, failed⟩ := List.exists_of_findSome?_eq_some failed
      obtain ⟨inner, found, rfl⟩ := Option.map_eq_some_iff.mp failed
      exact .items (by simp) (List.mem_zipIdx_iff_getElem?.mp member)
        (violates_of_validate entry.1 rules found)
  | .ref rules, _, failed => by
      rw [violation] at failed
      obtain ⟨inner, found, rfl⟩ := Option.map_eq_some_iff.mp failed
      exact .ref (by simp) (violates_of_validate value rules found)
  | .allOf index rules, _, failed => by
      rw [violation] at failed
      obtain ⟨inner, found, rfl⟩ := Option.map_eq_some_iff.mp failed
      exact .allOf (by simp) (violates_of_validate value rules found)

end

end Rule

end Library
