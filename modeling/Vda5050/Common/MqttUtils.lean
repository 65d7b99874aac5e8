import Vda5050.Common.SubscriptionManager

/-!
# The length of MQTT topics

Strings of the program are sequences of UTF-16 code units, of which the number
of bytes in UTF-8 is counted unit by unit. A topic is limited either by the
bytes of the whole topic or by those of its levels and separators.
-/

set_option autoImplicit false

namespace Vda5050

/-- A string as a sequence of code units, which need not be well formed. -/
abbrev Utf16String := List UInt16

namespace Utf16String

/-! ## Characters -/

def isHighSurrogate (code : UInt16) : Bool := 0xD800 ≤ code && code ≤ 0xDBFF

def isLowSurrogate (code : UInt16) : Bool := 0xDC00 ≤ code && code ≤ 0xDFFF

/-- Every surrogate is part of a pair. -/
inductive WellFormed : Utf16String → Prop where
  | nil : WellFormed []
  | unit {code : UInt16} {rest : Utf16String} :
      isHighSurrogate code = false → isLowSurrogate code = false → WellFormed rest →
      WellFormed (code :: rest)
  | pair {high low : UInt16} {rest : Utf16String} :
      isHighSurrogate high = true → isLowSurrogate low = true → WellFormed rest →
      WellFormed (high :: low :: rest)

/-- The character of a surrogate pair. -/
def pairChar (high low : UInt16) : Char :=
  Char.ofNat (0x10000 + (high.toNat - 0xD800) * 0x400 + (low.toNat - 0xDC00))

/-- A code unit outside of pairs, with the replacement character for surrogates. -/
def unitChar (code : UInt16) : Char :=
  if isHighSurrogate code || isLowSurrogate code then Char.ofNat 0xFFFD else Char.ofNat code.toNat

/-- The characters of a string. -/
def decode : Utf16String → List Char
  | [] => []
  | [code] => [unitChar code]
  | high :: low :: rest =>
      if isHighSurrogate high && isLowSurrogate low then pairChar high low :: decode rest
      else unitChar high :: decode (low :: rest)

/-- The code units of a character. -/
def encodeChar (char : Char) : Utf16String :=
  if char.toNat < 0x10000 then [UInt16.ofNat char.toNat]
  else
    [UInt16.ofNat (0xD800 + (char.toNat - 0x10000) / 0x400),
      UInt16.ofNat (0xDC00 + (char.toNat - 0x10000) % 0x400)]

/-- The code units of a well-formed string. -/
def encode (text : String) : Utf16String := text.toList.flatMap encodeChar

/-! ## Counting bytes -/

/-- What a code unit adds to the number of bytes. -/
def unitBytes (code : UInt16) : Nat :=
  if code ≤ 0x007F then 1
  else if code ≤ 0x07FF then 2
  else if code ≤ 0xD7FF then 3
  else if code ≤ 0xDFFF then 2
  else 3

def getUtf8BytesCount (str : Utf16String) : Nat :=
  str.foldl (fun count code => count + unitBytes code) 0

def assertMqttTopicUtf8Count (utf8Count : Nat) : Except String Unit :=
  if utf8Count > maxMqttTopicUtf8Count then
    .error "MQTT topic exceeds maximum allowed UTF-8 byte length"
  else .ok ()

def assertMqttTopicLength (mqttTopic : Utf16String) : Except String Unit :=
  if mqttTopic.length * 4 > maxMqttTopicUtf8Count then
    assertMqttTopicUtf8Count (getUtf8BytesCount mqttTopic)
  else .ok ()

private theorem getUtf8BytesCount_eq (str : Utf16String) :
    getUtf8BytesCount str = (str.map unitBytes).sum := by
  unfold getUtf8BytesCount
  rw [← List.foldl_map, List.sum_eq_foldl]

@[simp] theorem getUtf8BytesCount_nil : getUtf8BytesCount [] = 0 := rfl

@[simp] theorem getUtf8BytesCount_cons (code : UInt16) (str : Utf16String) :
    getUtf8BytesCount (code :: str) = unitBytes code + getUtf8BytesCount str := by
  simp [getUtf8BytesCount_eq]

@[simp] theorem getUtf8BytesCount_append (left right : Utf16String) :
    getUtf8BytesCount (left ++ right) = getUtf8BytesCount left + getUtf8BytesCount right := by
  simp [getUtf8BytesCount_eq]

/-! ## UTF-8 -/

private theorem size_utf8Encode_cons (char : Char) (chars : List Char) :
    (char :: chars).utf8Encode.size = char.utf8Size + chars.utf8Encode.size := by
  rw [List.utf8Encode_cons, ByteArray.size_append, ← String.toByteArray_singleton,
    String.size_toByteArray, String.utf8ByteSize_singleton]

/-- The bytes of a character, by its code point. -/
private theorem utf8Size_ofNat {code : Nat} (valid : code.isValidChar) :
    (Char.ofNat code).utf8Size =
      if code ≤ 0x7F then 1 else if code ≤ 0x7FF then 2 else if code ≤ 0xFFFF then 3 else 4 := by
  have value : (Char.ofNat code).val.toNat = code := by
    unfold Char.ofNat
    rw [dif_pos valid]
    rfl
  unfold Char.utf8Size
  simp only [UInt32.le_iff_toNat_le, value]
  rfl

private theorem isHighSurrogate_iff {code : UInt16} :
    isHighSurrogate code = true ↔ 0xD800 ≤ code.toNat ∧ code.toNat ≤ 0xDBFF := by
  simp [isHighSurrogate, UInt16.le_iff_toNat_le]

private theorem isLowSurrogate_iff {code : UInt16} :
    isLowSurrogate code = true ↔ 0xDC00 ≤ code.toNat ∧ code.toNat ≤ 0xDFFF := by
  simp [isLowSurrogate, UInt16.le_iff_toNat_le]

private theorem unitBytes_eq (code : UInt16) :
    unitBytes code =
      if code.toNat ≤ 0x7F then 1
      else if code.toNat ≤ 0x7FF then 2
      else if code.toNat ≤ 0xD7FF then 3
      else if code.toNat ≤ 0xDFFF then 2
      else 3 := by
  unfold unitBytes
  simp only [UInt16.le_iff_toNat_le]
  rfl

/-- A code unit outside of pairs counts as the bytes of its character. -/
private theorem unitBytes_unitChar {code : UInt16} (high : isHighSurrogate code = false)
    (low : isLowSurrogate code = false) : unitBytes code = (unitChar code).utf8Size := by
  have bound := code.toNat_lt
  have notHigh : ¬ (0xD800 ≤ code.toNat ∧ code.toNat ≤ 0xDBFF) := by
    rw [← isHighSurrogate_iff, high]
    exact Bool.false_ne_true
  have notLow : ¬ (0xDC00 ≤ code.toNat ∧ code.toNat ≤ 0xDFFF) := by
    rw [← isLowSurrogate_iff, low]
    exact Bool.false_ne_true
  have valid : code.toNat.isValidChar := by
    unfold Nat.isValidChar
    omega
  unfold unitChar
  rw [high, low, Bool.or_self, if_neg Bool.false_ne_true, utf8Size_ofNat valid, unitBytes_eq]
  split
  · rfl
  · split
    · rfl
    · rw [if_pos (by omega : code.toNat ≤ 0xFFFF)]
      split
      · rfl
      · rw [if_neg (by omega)]

/-- The halves of a surrogate pair count as the four bytes of its character. -/
private theorem unitBytes_pairChar {high low : UInt16} (isHigh : isHighSurrogate high = true)
    (isLow : isLowSurrogate low = true) :
    unitBytes high + unitBytes low = (pairChar high low).utf8Size := by
  rw [isHighSurrogate_iff] at isHigh
  rw [isLowSurrogate_iff] at isLow
  have valid : (0x10000 + (high.toNat - 0xD800) * 0x400 + (low.toNat - 0xDC00)).isValidChar := by
    unfold Nat.isValidChar
    omega
  unfold pairChar
  rw [utf8Size_ofNat valid, unitBytes_eq, unitBytes_eq, if_neg (by omega), if_neg (by omega),
    if_neg (by omega), if_pos (by omega), if_neg (by omega), if_neg (by omega), if_neg (by omega),
    if_pos (by omega), if_neg (by omega), if_neg (by omega), if_neg (by omega)]

private theorem decode_unit {code : UInt16} (high : isHighSurrogate code = false)
    (rest : Utf16String) :
    decode (code :: rest) = unitChar code :: decode rest := by
  cases rest with
  | nil => rfl
  | cons low rest => simp [decode, high]

private theorem decode_pair {high low : UInt16} (isHigh : isHighSurrogate high = true)
    (isLow : isLowSurrogate low = true) (rest : Utf16String) :
    decode (high :: low :: rest) = pairChar high low :: decode rest := by
  simp [decode, isHigh, isLow]

/-- The bytes counted of a well-formed string are those of its UTF-8 encoding. -/
private theorem WellFormed.getUtf8BytesCount {str : Utf16String} (wellFormed : WellFormed str) :
    getUtf8BytesCount str = (decode str).utf8Encode.size := by
  induction wellFormed with
  | nil => simp [decode]
  | unit high low _ ih =>
      rw [decode_unit high, size_utf8Encode_cons, getUtf8BytesCount_cons, ih,
        unitBytes_unitChar high low]
  | pair isHigh isLow _ ih =>
      rw [decode_pair isHigh isLow, size_utf8Encode_cons, getUtf8BytesCount_cons,
        getUtf8BytesCount_cons, ih, ← unitBytes_pairChar isHigh isLow, Nat.add_assoc]

/-! ## The limit -/

private theorem unitBytes_le (code : UInt16) : unitBytes code ≤ 3 := by
  unfold unitBytes
  split
  · decide
  · split
    · decide
    · split
      · decide
      · split <;> decide

private theorem getUtf8BytesCount_le (str : Utf16String) :
    getUtf8BytesCount str ≤ 3 * str.length := by
  induction str with
  | nil => simp
  | cons code str ih =>
      have unit := unitBytes_le code
      rw [getUtf8BytesCount_cons, List.length_cons]
      omega

/-- Topics that are not counted are short enough. -/
theorem assertMqttTopicLength_eq (mqttTopic : Utf16String) :
    assertMqttTopicLength mqttTopic =
      assertMqttTopicUtf8Count (Utf16String.getUtf8BytesCount mqttTopic) := by
  unfold assertMqttTopicLength
  split
  · rfl
  · next short =>
    have bound := getUtf8BytesCount_le mqttTopic
    unfold assertMqttTopicUtf8Count
    rw [if_neg (by omega)]

theorem assertMqttTopicUtf8Count_ok_iff (utf8Count : Nat) :
    assertMqttTopicUtf8Count utf8Count = .ok () ↔ utf8Count ≤ maxMqttTopicUtf8Count := by
  unfold assertMqttTopicUtf8Count
  split
  · next exceeded => simp [Nat.not_le.mpr exceeded]
  · next fits => simp [Nat.le_of_not_lt fits]

/-! ## Topics -/

/-- `join("/")` -/
def joinLevels (levels : List Utf16String) : Utf16String := [0x2F].intercalate levels

/-- The bytes of the levels, with one for each separator. -/
def levelsUtf8Length (levels : List Utf16String) : Nat :=
  levels.zipIdx.foldl
    (fun prev cur =>
      prev + getUtf8BytesCount cur.1 + if cur.2 = levels.length - 1 then 0 else 1) 0

private theorem foldl_levels (levels : List Utf16String) (start last prev : Nat)
    (ends : levels = [] ∨ start + levels.length = last + 1) :
    (levels.zipIdx start).foldl
        (fun prev cur => prev + getUtf8BytesCount cur.1 + if cur.2 = last then 0 else 1) prev =
      prev + (levels.map getUtf8BytesCount).sum + (levels.length - 1) := by
  induction levels generalizing start prev with
  | nil => simp
  | cons level levels ih =>
      have whole := ends.resolve_left (List.cons_ne_nil _ _)
      rw [List.length_cons] at whole
      rw [List.zipIdx_cons, List.foldl_cons, ih, List.map_cons, List.sum_cons, List.length_cons]
      · cases levels with
        | nil =>
            rw [if_pos (by simpa using whole)]
            simp
        | cons next levels =>
            rw [List.length_cons] at whole ⊢
            rw [if_neg (by omega)]
            dsimp only
            omega
      · cases levels with
        | nil => exact .inl rfl
        | cons next levels => exact .inr (by omega)

private theorem getUtf8BytesCount_joinLevels (levels : List Utf16String) :
    getUtf8BytesCount (joinLevels levels) =
      (levels.map getUtf8BytesCount).sum + (levels.length - 1) := by
  unfold joinLevels
  induction levels with
  | nil => rfl
  | cons level levels ih =>
      cases levels with
      | nil => simp
      | cons next levels =>
          have separator : getUtf8BytesCount [0x2F] = 1 := by decide
          rw [List.intercalate_cons_cons, getUtf8BytesCount_append, getUtf8BytesCount_append, ih,
            separator]
          simp only [List.map_cons, List.sum_cons, List.length_cons]
          omega

/-- Counting level by level agrees with counting the joined topic. -/
private theorem levelsUtf8Length_eq (levels : List Utf16String) :
    levelsUtf8Length levels = getUtf8BytesCount (joinLevels levels) := by
  unfold levelsUtf8Length
  rw [foldl_levels, getUtf8BytesCount_joinLevels, Nat.zero_add]
  cases levels with
  | nil => exact .inl rfl
  | cons level levels => exact .inr (by simp)

/-! ## Well-formed strings -/

private theorem toNat_valid (char : Char) :
    char.toNat < 0xD800 ∨ 0xDFFF < char.toNat ∧ char.toNat < 0x110000 := char.valid

/-- The code units of a character are not split up by what follows them. -/
private theorem decode_encodeChar (char : Char) (rest : Utf16String) :
    decode (encodeChar char ++ rest) = char :: decode rest := by
  have valid := toNat_valid char
  unfold encodeChar
  split
  · next small =>
    have value : (UInt16.ofNat char.toNat).toNat = char.toNat := UInt16.toNat_ofNat_of_lt' small
    have high : isHighSurrogate (UInt16.ofNat char.toNat) = false := by
      rw [Bool.eq_false_iff, ne_eq, isHighSurrogate_iff, value]
      omega
    have low : isLowSurrogate (UInt16.ofNat char.toNat) = false := by
      rw [Bool.eq_false_iff, ne_eq, isLowSurrogate_iff, value]
      omega
    rw [List.singleton_append, decode_unit high]
    unfold unitChar
    rw [high, low, Bool.or_self, if_neg Bool.false_ne_true, value, Char.ofNat_toNat]
  · next large =>
    have highValue : (UInt16.ofNat (0xD800 + (char.toNat - 0x10000) / 0x400)).toNat =
        0xD800 + (char.toNat - 0x10000) / 0x400 := UInt16.toNat_ofNat_of_lt' (by
      change _ < 65536
      omega)
    have lowValue : (UInt16.ofNat (0xDC00 + (char.toNat - 0x10000) % 0x400)).toNat =
        0xDC00 + (char.toNat - 0x10000) % 0x400 := UInt16.toNat_ofNat_of_lt' (by
      change _ < 65536
      omega)
    have high : isHighSurrogate (UInt16.ofNat (0xD800 + (char.toNat - 0x10000) / 0x400)) =
        true := by
      rw [isHighSurrogate_iff, highValue]
      omega
    have low : isLowSurrogate (UInt16.ofNat (0xDC00 + (char.toNat - 0x10000) % 0x400)) = true := by
      rw [isLowSurrogate_iff, lowValue]
      omega
    rw [List.cons_append, List.singleton_append, decode_pair high low]
    unfold pairChar
    have same : 0x10000 + (0xD800 + (char.toNat - 0x10000) / 0x400 - 0xD800) * 0x400 +
        (0xDC00 + (char.toNat - 0x10000) % 0x400 - 0xDC00) = char.toNat := by omega
    rw [highValue, lowValue, same, Char.ofNat_toNat]

private theorem wellFormed_encodeChar (char : Char) {rest : Utf16String}
    (wellFormed : WellFormed rest) :
    WellFormed (encodeChar char ++ rest) := by
  have valid := toNat_valid char
  unfold encodeChar
  split
  · next small =>
    have value : (UInt16.ofNat char.toNat).toNat = char.toNat := UInt16.toNat_ofNat_of_lt' small
    refine .unit ?_ ?_ wellFormed
    · rw [Bool.eq_false_iff, ne_eq, isHighSurrogate_iff, value]
      omega
    · rw [Bool.eq_false_iff, ne_eq, isLowSurrogate_iff, value]
      omega
  · next large =>
    refine .pair ?_ ?_ wellFormed
    · rw [isHighSurrogate_iff, UInt16.toNat_ofNat_of_lt' (by change _ < 65536; omega)]
      omega
    · rw [isLowSurrogate_iff, UInt16.toNat_ofNat_of_lt' (by change _ < 65536; omega)]
      omega

private theorem decode_encode (text : String) : decode (encode text) = text.toList := by
  unfold encode
  induction text.toList with
  | nil => rfl
  | cons char chars ih => rw [List.flatMap_cons, decode_encodeChar, ih]

private theorem wellFormed_encode (text : String) : WellFormed (encode text) := by
  unfold encode
  induction text.toList with
  | nil => exact .nil
  | cons char chars ih => exact wellFormed_encodeChar char ih

private theorem encode_injective {left right : String} (same : encode left = encode right) :
    left = right := by
  apply String.toList_injective
  rw [← decode_encode, ← decode_encode, same]

theorem getUtf8BytesCount_encode (text : String) :
    getUtf8BytesCount (encode text) = text.utf8ByteSize := by
  rw [(wellFormed_encode text).getUtf8BytesCount, decode_encode, ← String.size_toByteArray]
  congr 1
  rw [← String.toByteArray_ofList, String.ofList_toList]

private theorem encode_joinLevels (levels : List String) :
    encode (Vda5050.joinLevels levels) = joinLevels (levels.map encode) := by
  unfold Vda5050.joinLevels joinLevels encode
  rw [String.toList_intercalate]
  induction levels with
  | nil => rfl
  | cons level levels ih =>
      cases levels with
      | nil => simp
      | cons next levels =>
          rw [List.map_cons, List.map_cons, List.intercalate_cons_cons, List.map_cons,
            List.map_cons, List.intercalate_cons_cons, List.flatMap_append, List.flatMap_append,
            ← List.map_cons, ih]
          rfl

end Utf16String

/-! ## Topic formats -/

/-- A compiled topic format, with levels of any code units. -/
structure Utf16TopicFormat where
  levels : List Utf16String
  interfaceName : Utf16String
  majorVersion : Utf16String
  hasTopic : Utf16String.encode topicPlaceholder ∈ levels

namespace Utf16TopicFormat

open Utf16String (encode getUtf8BytesCount levelsUtf8Length assertMqttTopicLength
  assertMqttTopicUtf8Count)

/-- `levels.indexOf(placeholder)`, with `none` for -1. -/
def indexOfLevel (levels : List Utf16String) (placeholder : String) : Option Nat :=
  levels.findIdx? (· = encode placeholder)

/-- A placeholder is not a complete level or specified multiple times. -/
def isMisplaced (levels : List Utf16String) (placeholder : String) : Bool :=
  levels.zipIdx.any fun (level, index) =>
    decide (encode placeholder <:+: level) && indexOfLevel levels placeholder ≠ some index

/-- `_compileMqttTopic` -/
def compileMqttTopic (topicFormat interfaceName protocolVersion : Utf16String) :
    Except String Utf16TopicFormat :=
  let levels := topicFormat.splitOn 0x2F
  match placeholders.find? (isMisplaced levels) with
  | some placeholder =>
      .error s!"Invalid topic format: {placeholder} placeholder not a complete topic level or specified multiple times"
  | none =>
      if hasTopic : encode topicPlaceholder ∈ levels then
        .ok
          { levels := levels
            interfaceName := interfaceName
            majorVersion := encode "v" ++
              if 0x2E ∈ protocolVersion then protocolVersion.takeWhile (· ≠ 0x2E) else []
            hasTopic := hasTopic }
      else .error "Invalid topic format: %topic% placeholder is missing"

variable (format : Utf16TopicFormat)

def setLevel (placeholder : String) (value : Utf16String) (levels : List Utf16String) :
    List Utf16String :=
  (indexOfLevel format.levels placeholder).elim levels (levels.set · value)

/-- The levels of the topic constructed from a format. -/
def constructLevels (manufacturer serialNumber topic : Utf16String) : List Utf16String :=
  format.setLevel topicPlaceholder topic
    (format.setLevel serialNumberPlaceholder serialNumber
      (format.setLevel manufacturerPlaceholder manufacturer
        (format.setLevel majorVersionPlaceholder format.majorVersion
          (format.setLevel interfaceNamePlaceholder format.interfaceName format.levels))))

/-- `getMqttTopic`, with `none` for a wildcard. -/
def getMqttTopic (topic manufacturer serialNumber : Option Utf16String) : Utf16String :=
  Utf16String.joinLevels (format.constructLevels (manufacturer.getD (encode "+"))
    (serialNumber.getD (encode "+")) (topic.getD (encode "+")))

def getMqttTopicUtf8Length (topic manufacturer serialNumber : Option Utf16String) : Nat :=
  levelsUtf8Length (format.constructLevels (manufacturer.getD (encode "+"))
    (serialNumber.getD (encode "+")) (topic.getD (encode "+")))

/-! ## Agreement with formats of well-formed strings -/

/-- The code units of a format of well-formed strings. -/
def ofTopicFormat (format : TopicFormat) : Utf16TopicFormat where
  levels := format.levels.map encode
  interfaceName := encode format.interfaceName
  majorVersion := encode format.majorVersion
  hasTopic := List.mem_map_of_mem format.hasTopic

private theorem indexOfLevel_map (levels : List String) (placeholder : String) :
    indexOfLevel (levels.map encode) placeholder = Vda5050.indexOfLevel levels placeholder := by
  unfold indexOfLevel Vda5050.indexOfLevel
  rw [List.findIdx?_map]
  congr 1
  funext level
  simp only [Function.comp_apply, decide_eq_decide]
  exact ⟨Utf16String.encode_injective, congrArg encode⟩

private theorem setLevel_ofTopicFormat (format : TopicFormat) (placeholder value : String)
    (levels : List String) :
    (ofTopicFormat format).setLevel placeholder (encode value) (levels.map encode) =
      (format.setLevel placeholder value levels).map encode := by
  unfold setLevel TopicFormat.setLevel ofTopicFormat
  dsimp only
  rw [indexOfLevel_map]
  cases Vda5050.indexOfLevel format.levels placeholder with
  | none => rfl
  | some index => simp [List.map_set]

private theorem constructLevels_ofTopicFormat (format : TopicFormat)
    (manufacturer serialNumber topic : String) :
    (ofTopicFormat format).constructLevels (encode manufacturer) (encode serialNumber)
        (encode topic) =
      (format.constructLevels manufacturer serialNumber topic).map encode := by
  unfold constructLevels TopicFormat.constructLevels
  simp only [← setLevel_ofTopicFormat]
  rfl

private theorem getMqttTopic_ofTopicFormat (format : TopicFormat)
    (manufacturer serialNumber topic : String) :
    (ofTopicFormat format).getMqttTopic (some (encode topic)) (some (encode manufacturer))
        (some (encode serialNumber)) =
      encode (format.constructMqttTopic manufacturer serialNumber topic) := by
  unfold getMqttTopic TopicFormat.constructMqttTopic
  rw [Utf16String.encode_joinLevels, Option.getD_some, Option.getD_some, Option.getD_some,
    constructLevels_ofTopicFormat]

/-- The length of a topic of well-formed strings. -/
private theorem getMqttTopicUtf8Length_ofTopicFormat (format : TopicFormat)
    (manufacturer serialNumber topic : String) :
    (ofTopicFormat format).getMqttTopicUtf8Length (some (encode topic))
        (some (encode manufacturer)) (some (encode serialNumber)) =
      format.getMqttTopicUtf8Length manufacturer serialNumber topic := by
  unfold getMqttTopicUtf8Length TopicFormat.getMqttTopicUtf8Length
  rw [Utf16String.levelsUtf8Length_eq, Utf16String.getUtf8BytesCount_joinLevels,
    Option.getD_some, Option.getD_some, Option.getD_some, constructLevels_ofTopicFormat,
    List.map_map, List.length_map]
  have bytes : getUtf8BytesCount ∘ encode = String.utf8ByteSize :=
    funext Utf16String.getUtf8BytesCount_encode
  rw [bytes]

/-- What is counted for a subscription are the bytes of the topic. -/
theorem getMqttTopicUtf8Length_eq (format : TopicFormat)
    (manufacturer serialNumber topic : String) :
    format.getMqttTopicUtf8Length manufacturer serialNumber topic =
      (format.constructMqttTopic manufacturer serialNumber topic).utf8ByteSize := by
  rw [← getMqttTopicUtf8Length_ofTopicFormat, ← Utf16String.getUtf8BytesCount_encode,
    ← getMqttTopic_ofTopicFormat]
  exact Utf16String.levelsUtf8Length_eq _

/-! ## Lengths of topics -/

/-- The bytes counted of well-formed strings are those of their UTF-8 encoding.
The topics that exceed the limit are rejected, and by subscriptions the same
ones as by publications. -/
theorem mqttTopicLength_agrees :
    (∀ str : Utf16String, str.WellFormed →
      getUtf8BytesCount str = str.decode.utf8Encode.size ∧
        (assertMqttTopicLength str ≠ .ok () ↔
          maxMqttTopicUtf8Count < str.decode.utf8Encode.size)) ∧
      ∀ topicFormat interfaceName protocolVersion format,
        compileMqttTopic topicFormat interfaceName protocolVersion = .ok format →
        ∀ topic manufacturer serialNumber,
          format.getMqttTopicUtf8Length topic manufacturer serialNumber =
              getUtf8BytesCount (format.getMqttTopic topic manufacturer serialNumber) ∧
            assertMqttTopicUtf8Count
                (format.getMqttTopicUtf8Length topic manufacturer serialNumber) =
              assertMqttTopicLength (format.getMqttTopic topic manufacturer serialNumber) := by
  constructor
  · intro str wellFormed
    refine ⟨wellFormed.getUtf8BytesCount, ?_⟩
    rw [Utf16String.assertMqttTopicLength_eq, ne_eq, Utf16String.assertMqttTopicUtf8Count_ok_iff,
      wellFormed.getUtf8BytesCount, Nat.not_le]
  · intro _ _ _ format _ topic manufacturer serialNumber
    have same := Utf16String.levelsUtf8Length_eq (format.constructLevels
      (manufacturer.getD (encode "+")) (serialNumber.getD (encode "+")) (topic.getD (encode "+")))
    refine ⟨same, ?_⟩
    rw [Utf16String.assertMqttTopicLength_eq]
    exact congrArg assertMqttTopicUtf8Count same

theorem mqttTopicLength_of_emoji :
    getUtf8BytesCount [0xD83D, 0xDE00] = 4 ∧
      ∃ format, compileMqttTopic (encode "%topic%") (encode "uagv") (encode "2.0.0") =
          .ok format ∧
        format.getMqttTopicUtf8Length none none none =
          getUtf8BytesCount (format.getMqttTopic none none none) := by
  refine ⟨?_, ?_⟩
  · rw [(mqttTopicLength_agrees.1 [0xD83D, 0xDE00] (.pair rfl rfl .nil)).1]
    decide
  · obtain ⟨format, compiled⟩ : ∃ format, compileMqttTopic (encode "%topic%") (encode "uagv")
        (encode "2.0.0") = .ok format := ⟨_, rfl⟩
    exact ⟨format, compiled, (mqttTopicLength_agrees.2 _ _ _ format compiled none none none).1⟩

end Utf16TopicFormat

end Vda5050
