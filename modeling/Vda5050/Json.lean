import Mathlib.Data.List.TakeWhile
import Mathlib.Data.Rat.Defs

/-!
# JSON values

The values `JSON.parse` yields, with the two JavaScript conversions the
controllers apply to them. Property access sees own properties only: none of
the property names read by the program is inherited from `Object.prototype`,
except for `toString`, which is treated explicitly.
-/

set_option autoImplicit false

namespace Vda5050

/-- A JSON value. A number carries its value and the text to which
`Number.prototype.toString` renders it. -/
inductive Json where
  | null
  | bool (value : Bool)
  | num (value : Rat) (text : String)
  | str (value : String)
  | arr (items : List Json)
  | obj (fields : List (String × Json))
  deriving Repr

namespace Json

/-! Equality of nested values is decided along their structure. -/

mutual

def decEq : (left right : Json) → Decidable (left = right)
  | .null, .null => isTrue rfl
  | .bool left, .bool right =>
      if same : left = right then isTrue (by rw [same]) else isFalse (by simpa using same)
  | .num left leftText, .num right rightText =>
      if same : left = right ∧ leftText = rightText then
        isTrue (by rw [same.1, same.2])
      else isFalse (by simpa using same)
  | .str left, .str right =>
      if same : left = right then isTrue (by rw [same]) else isFalse (by simpa using same)
  | .arr left, .arr right =>
      match decEqItems left right with
      | isTrue same => isTrue (by rw [same])
      | isFalse different => isFalse (by simpa using different)
  | .obj left, .obj right =>
      match decEqFields left right with
      | isTrue same => isTrue (by rw [same])
      | isFalse different => isFalse (by simpa using different)
  | .null, .bool _ | .null, .num _ _ | .null, .str _ | .null, .arr _ | .null, .obj _
  | .bool _, .null | .bool _, .num _ _ | .bool _, .str _ | .bool _, .arr _ | .bool _, .obj _
  | .num _ _, .null | .num _ _, .bool _ | .num _ _, .str _ | .num _ _, .arr _
  | .num _ _, .obj _
  | .str _, .null | .str _, .bool _ | .str _, .num _ _ | .str _, .arr _ | .str _, .obj _
  | .arr _, .null | .arr _, .bool _ | .arr _, .num _ _ | .arr _, .str _ | .arr _, .obj _
  | .obj _, .null | .obj _, .bool _ | .obj _, .num _ _ | .obj _, .str _ | .obj _, .arr _ =>
      isFalse (by simp)

def decEqItems : (left right : List Json) → Decidable (left = right)
  | [], [] => isTrue rfl
  | [], _ :: _ => isFalse (by simp)
  | _ :: _, [] => isFalse (by simp)
  | left :: lefts, right :: rights =>
      match decEq left right, decEqItems lefts rights with
      | isTrue head, isTrue tail => isTrue (by rw [head, tail])
      | isFalse head, _ => isFalse (by simp [head])
      | _, isFalse tail => isFalse (by simp [tail])

def decEqFields : (left right : List (String × Json)) → Decidable (left = right)
  | [], [] => isTrue rfl
  | [], _ :: _ => isFalse (by simp)
  | _ :: _, [] => isFalse (by simp)
  | (leftKey, left) :: lefts, (rightKey, right) :: rights =>
      if key : leftKey = rightKey then
        match decEq left right, decEqFields lefts rights with
        | isTrue head, isTrue tail => isTrue (by rw [key, head, tail])
        | isFalse head, _ => isFalse (by simp [head])
        | _, isFalse tail => isFalse (by simp [tail])
      else isFalse (by simp [key])

end

instance : DecidableEq Json := decEq

/-- `value.key`: the own property of an object, `none` for `undefined`. -/
def property? (key : String) : Json → Option Json
  | .obj fields => fields.lookup key
  | _ => none

/-- A `TypeError` raised by a JavaScript operation. -/
structure TypeError where
  message : String
  deriving DecidableEq, Repr

mutual

/-- `value.toString()`. A `toString` property in a JSON object shadows the
inherited method and is never callable. -/
def toStringMethod : Json → Except TypeError String
  | .null => .error ⟨"Cannot read property 'toString' of null"⟩
  | .bool value => .ok (if value then "true" else "false")
  | .num _ text => .ok text
  | .str value => .ok value
  | .arr items => do
      let texts ← joinedTexts items
      return String.intercalate "," texts
  | .obj fields =>
      if (fields.lookup "toString").isSome then .error ⟨"toString is not a function"⟩
      else .ok "[object Object]"

/-- The texts of the array elements joined by `Array.prototype.toString`;
`null` elements contribute the empty text. -/
def joinedTexts : List Json → Except TypeError (List String)
  | [] => .ok []
  | .null :: items => do
      let texts ← joinedTexts items
      return "" :: texts
  | item :: items => do
      let text ← toStringMethod item
      let texts ← joinedTexts items
      return text :: texts

end

end Json

/-! ## Numbers in texts -/

/-- The white space and line terminators of the language. -/
def isStrWhiteSpaceChar (char : Char) : Bool :=
  char.toNat ∈ [0x9, 0xA, 0xB, 0xC, 0xD, 0x20, 0xA0, 0x1680, 0x2028, 0x2029, 0x202F, 0x205F,
    0x3000, 0xFEFF] || (0x2000 ≤ char.toNat && char.toNat ≤ 0x200A)

def parseDigits (sign : Int) (chars : List Char) : Option Int :=
  match chars.takeWhile Char.isDigit with
  | [] => none
  | digit :: digits => some (sign * Nat.ofDigitChars 10 (digit :: digits) 0)

/-- `parseInt(text, 10)`, which is `none` for `NaN`. -/
def parseInt (text : String) : Option Int :=
  match text.toList.dropWhile isStrWhiteSpaceChar with
  | '-' :: chars => parseDigits (-1) chars
  | '+' :: chars => parseDigits 1 chars
  | chars => parseDigits 1 chars

end Vda5050
