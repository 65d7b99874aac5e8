import Mathlib.Algebra.GroupWithZero.Nat
import Mathlib.Data.List.Infix

/-!
# MQTT topics

An MQTT topic is constructed from a topic format by replacing the levels that
are placeholders, and is deconstructed by reading these levels again.
-/

set_option autoImplicit false

namespace Vda5050

/-! ## Topic levels -/

/-- `split("/")` -/
def splitLevels (mqttTopic : String) : List String :=
  (mqttTopic.split '/').toList.map (·.copy)

/-- `join("/")` -/
def joinLevels (levels : List String) : String :=
  (String.singleton '/').intercalate levels

theorem splitLevels_eq (mqttTopic : String) :
    splitLevels mqttTopic = (mqttTopic.toList.splitOn '/').map String.ofList :=
  String.toList_split_char

/-- Levels are found again in the topic that joins them. -/
theorem splitLevels_joinLevels {levels : List String} (nonempty : levels ≠ [])
    (separated : ∀ level ∈ levels, '/' ∉ level.toList) :
    splitLevels (joinLevels levels) = levels := by
  have split := String.toList_split_intercalate separated
  rw [if_neg nonempty] at split
  exact split

private theorem not_mem_of_mem_splitOn {Element : Type} [BEq Element] [LawfulBEq Element]
    {separator : Element} {elements part : List Element}
    (member : part ∈ elements.splitOn separator) : separator ∉ part := by
  induction elements generalizing part with
  | nil =>
      obtain rfl : part = [] := by simpa using member
      exact List.not_mem_nil
  | cons element elements ih =>
      rw [List.splitOn_cons_eq_if_modifyHead] at member
      split at member
      · rcases List.mem_cons.mp member with rfl | later
        · exact List.not_mem_nil
        · exact ih later
      · next different =>
        cases parts : elements.splitOn separator with
        | nil => simp [parts] at member
        | cons first rest =>
            rw [parts, List.modifyHead_cons] at member
            rcases List.mem_cons.mp member with rfl | later
            · have below : separator ∉ first := ih (by rw [parts]; exact List.mem_cons_self)
              intro inside
              rcases List.mem_cons.mp inside with rfl | inside
              · simp at different
              · exact below inside
            · exact ih (by rw [parts]; exact List.mem_cons_of_mem _ later)

/-- The levels of a topic do not contain the separator. -/
private theorem separated_splitLevels (mqttTopic : String) :
    ∀ level ∈ splitLevels mqttTopic, '/' ∉ level.toList := by
  intro level member
  rw [splitLevels_eq] at member
  obtain ⟨part, included, rfl⟩ := List.mem_map.mp member
  rw [String.toList_ofList]
  exact not_mem_of_mem_splitOn included

/-! ## Topic formats -/

def interfaceNamePlaceholder : String := "%interfaceName%"
def majorVersionPlaceholder : String := "%majorVersion%"
def manufacturerPlaceholder : String := "%manufacturer%"
def serialNumberPlaceholder : String := "%serialNumber%"
def topicPlaceholder : String := "%topic%"

def placeholders : List String :=
  [interfaceNamePlaceholder, majorVersionPlaceholder, manufacturerPlaceholder,
    serialNumberPlaceholder, topicPlaceholder]

/-- A compiled topic format. The levels that are no placeholders stand for themselves. -/
structure TopicFormat where
  levels : List String
  interfaceName : String
  majorVersion : String
  separated : ∀ level ∈ levels, '/' ∉ level.toList
  hasTopic : topicPlaceholder ∈ levels

/-- `levels.indexOf(placeholder)`, with `none` for -1. -/
def indexOfLevel (levels : List String) (placeholder : String) : Option Nat :=
  levels.findIdx? (· = placeholder)

/-- A placeholder is not a complete level or specified multiple times. -/
def isMisplaced (levels : List String) (placeholder : String) : Bool :=
  levels.zipIdx.any fun (level, index) =>
    decide (placeholder.toList <:+: level.toList) && indexOfLevel levels placeholder ≠ some index

/-- `substring(0, indexOf("."))`, which is empty if there is no such character. -/
def beforeFirstDot (text : String) : String :=
  if '.' ∈ text.toList then String.ofList (text.toList.takeWhile (· ≠ '.')) else ""

/-- `_compileMqttTopic`, where the topic functions are those of the format returned. -/
def compileMqttTopic (topicFormat interfaceName protocolVersion : String) :
    Except String TopicFormat :=
  let levels := splitLevels topicFormat
  match placeholders.find? (isMisplaced levels) with
  | some placeholder =>
      .error s!"Invalid topic format: {placeholder} placeholder not a complete topic level or specified multiple times"
  | none =>
      if hasTopic : topicPlaceholder ∈ levels then
        .ok
          { levels := levels
            interfaceName := interfaceName
            majorVersion := "v" ++ beforeFirstDot protocolVersion
            separated := separated_splitLevels topicFormat
            hasTopic := hasTopic }
      else .error "Invalid topic format: %topic% placeholder is missing"

namespace TopicFormat

variable (format : TopicFormat)

def setLevel (placeholder value : String) (levels : List String) : List String :=
  (indexOfLevel format.levels placeholder).elim levels (levels.set · value)

/-- The levels of the topic constructed from a format. -/
def constructLevels (manufacturer serialNumber topic : String) : List String :=
  format.setLevel topicPlaceholder topic
    (format.setLevel serialNumberPlaceholder serialNumber
      (format.setLevel manufacturerPlaceholder manufacturer
        (format.setLevel majorVersionPlaceholder format.majorVersion
          (format.setLevel interfaceNamePlaceholder format.interfaceName format.levels))))

/-- `_constructMqttTopic` -/
def constructMqttTopic (manufacturer serialNumber topic : String) : String :=
  joinLevels (format.constructLevels manufacturer serialNumber topic)

/-- A level of a topic, `none` if the format or the topic has no such level. -/
def levelOf (placeholder : String) (mqttLevels : List String) : Option String :=
  (indexOfLevel format.levels placeholder).bind (mqttLevels[·]?)

/-- The result of `_deconstructMqttTopic`, with `none` for `undefined`. -/
structure DeconstructedTopic where
  manufacturer : Option String
  serialNumber : Option String
  topic : Option String
  deriving DecidableEq, Repr

/-- `_deconstructMqttTopic` -/
def deconstructMqttTopic (mqttTopic : String) : DeconstructedTopic :=
  let mqttLevels := splitLevels mqttTopic
  { manufacturer := format.levelOf manufacturerPlaceholder mqttLevels
    serialNumber := format.levelOf serialNumberPlaceholder mqttLevels
    topic := format.levelOf topicPlaceholder mqttLevels }

/-- `_getMqttTopicUtf8Length`, with one byte for each separator. -/
def getMqttTopicUtf8Length (manufacturer serialNumber topic : String) : Nat :=
  let levels := format.constructLevels manufacturer serialNumber topic
  (levels.map (·.utf8ByteSize)).sum + (levels.length - 1)

/-! ## Deconstruction of constructed topics -/

@[simp] theorem length_setLevel (placeholder value : String) (levels : List String) :
    (format.setLevel placeholder value levels).length = levels.length := by
  unfold setLevel
  cases indexOfLevel format.levels placeholder <;> simp

@[simp] theorem length_constructLevels (manufacturer serialNumber topic : String) :
    (format.constructLevels manufacturer serialNumber topic).length = format.levels.length := by
  simp [constructLevels]

theorem mem_setLevel {placeholder value level : String} {levels : List String}
    (member : level ∈ format.setLevel placeholder value levels) :
    level = value ∨ level ∈ levels := by
  unfold setLevel at member
  cases found : indexOfLevel format.levels placeholder with
  | none => exact .inr (by simpa [found] using member)
  | some index =>
      rw [found] at member
      exact (List.mem_or_eq_of_mem_set member).symm

/-- Constructed levels do not contain the separator if the values put in do not. -/
theorem separated_constructLevels {manufacturer serialNumber topic : String}
    (interfaceName : '/' ∉ format.interfaceName.toList)
    (majorVersion : '/' ∉ format.majorVersion.toList)
    (manufacturer' : '/' ∉ manufacturer.toList) (serialNumber' : '/' ∉ serialNumber.toList)
    (topic' : '/' ∉ topic.toList) :
    ∀ level ∈ format.constructLevels manufacturer serialNumber topic, '/' ∉ level.toList := by
  intro level member
  rcases format.mem_setLevel member with rfl | member
  · exact topic'
  rcases format.mem_setLevel member with rfl | member
  · exact serialNumber'
  rcases format.mem_setLevel member with rfl | member
  · exact manufacturer'
  rcases format.mem_setLevel member with rfl | member
  · exact majorVersion
  rcases format.mem_setLevel member with rfl | member
  · exact interfaceName
  · exact format.separated level member

private theorem indexOfLevel_spec {levels : List String} {placeholder : String} {index : Nat}
    (found : indexOfLevel levels placeholder = some index) :
    levels[index]? = some placeholder := by
  obtain ⟨bound, same, -⟩ := List.findIdx?_eq_some_iff_getElem.mp found
  rw [List.getElem?_eq_getElem bound]
  exact congrArg some (by simpa using same)

/-- The level last set is read back. -/
private theorem levelOf_setLevel_same {placeholder value : String} {levels : List String}
    (length : levels.length = format.levels.length) :
    format.levelOf placeholder (format.setLevel placeholder value levels) =
      (indexOfLevel format.levels placeholder).map fun _ => value := by
  unfold levelOf setLevel
  cases found : indexOfLevel format.levels placeholder with
  | none => rfl
  | some index =>
      have bound : index < levels.length := by
        rw [length]
        exact (List.getElem?_eq_some_iff.mp (indexOfLevel_spec found)).1
      simp [bound]

/-- Setting the level of another placeholder does not change a level. -/
private theorem levelOf_setLevel_other {placeholder other value : String} {levels : List String}
    (different : placeholder ≠ other) :
    format.levelOf placeholder (format.setLevel other value levels) =
      format.levelOf placeholder levels := by
  unfold levelOf setLevel
  cases found : indexOfLevel format.levels placeholder with
  | none => rfl
  | some index =>
      cases foundOther : indexOfLevel format.levels other with
      | none => rfl
      | some otherIndex =>
          have apart : otherIndex ≠ index := by
            rintro rfl
            have same := (indexOfLevel_spec found).symm.trans (indexOfLevel_spec foundOther)
            exact different (Option.some.inj same)
          simp [List.getElem?_set_ne apart]

/-- The levels of placeholders are read back, as far as the format has them. -/
theorem deconstructMqttTopic_constructMqttTopic {manufacturer serialNumber topic : String}
    (interfaceName : '/' ∉ format.interfaceName.toList)
    (majorVersion : '/' ∉ format.majorVersion.toList)
    (manufacturer' : '/' ∉ manufacturer.toList) (serialNumber' : '/' ∉ serialNumber.toList)
    (topic' : '/' ∉ topic.toList) :
    format.deconstructMqttTopic (format.constructMqttTopic manufacturer serialNumber topic) =
      { manufacturer :=
          (indexOfLevel format.levels manufacturerPlaceholder).map fun _ => manufacturer
        serialNumber :=
          (indexOfLevel format.levels serialNumberPlaceholder).map fun _ => serialNumber
        topic := some topic } := by
  have nonempty : format.constructLevels manufacturer serialNumber topic ≠ [] := by
    intro none
    have length := format.length_constructLevels manufacturer serialNumber topic
    rw [none, List.length_nil] at length
    exact List.ne_nil_of_mem format.hasTopic (List.length_eq_zero_iff.mp length.symm)
  unfold deconstructMqttTopic constructMqttTopic
  rw [splitLevels_joinLevels nonempty (format.separated_constructLevels interfaceName majorVersion
    manufacturer' serialNumber' topic')]
  obtain ⟨index, found⟩ : ∃ index, indexOfLevel format.levels topicPlaceholder = some index := by
    refine Option.isSome_iff_exists.mp (List.findIdx?_isSome.trans ?_)
    exact List.any_eq_true.mpr ⟨topicPlaceholder, format.hasTopic, by simp⟩
  unfold constructLevels
  simp only [DeconstructedTopic.mk.injEq]
  refine ⟨?_, ?_, ?_⟩
  · rw [levelOf_setLevel_other _ (by decide), levelOf_setLevel_other _ (by decide),
      levelOf_setLevel_same _ (by simp)]
  · rw [levelOf_setLevel_other _ (by decide), levelOf_setLevel_same _ (by simp)]
  · rw [levelOf_setLevel_same _ (by simp), found, Option.map_some]

end TopicFormat

end Vda5050
