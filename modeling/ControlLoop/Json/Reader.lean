import ControlLoop.Json.Written

/-!
# Reading JSON

The meaning of a written value: pairs of units become characters, numbers get
their values and of a repeated key the last one counts. A value has no meaning
if it holds half of a pair, a number that is too large, or arrays and objects
nested deeper than is allowed.
-/

set_option autoImplicit false

namespace ControlLoop

namespace StringPart

/-- Whether a unit is the first half of a pair. -/
def isHigh (code : Nat) : Bool := 0xD800 ≤ code && code < 0xDC00

/-- Whether a unit is the second half of a pair. -/
def isLow (code : Nat) : Bool := 0xDC00 ≤ code && code < 0xE000

/-- The characters of a string, unless half of a pair stands alone. -/
def characters? : List StringPart → Option (List Char)
  | [] => some []
  | .plain c :: rest => (characters? rest).map (c :: ·)
  | .unit high :: .unit low :: rest =>
    if isHigh high then
      if isLow low then
        let code := 0x10000 + (high - 0xD800) * 0x400 + (low - 0xDC00)
        (characters? rest).map (Char.ofNat code :: ·)
      else none
    else if isLow high then none
    else (characters? (.unit low :: rest)).map (Char.ofNat high :: ·)
  | .unit code :: rest =>
    if isHigh code || isLow code then none
    else (characters? rest).map (Char.ofNat code :: ·)

/-- The text of a string. -/
def text? (parts : List StringPart) : Option String := (characters? parts).map String.ofList

end StringPart

namespace WrittenJson

mutual

/-- The meaning of a value, in which arrays and objects nest no deeper than `nesting`. -/
def toJson? (nesting : Nat) : WrittenJson → Option Json
  | .null => some .null
  | .bool b => some (.bool b)
  | .number text => (Number.ofText? text).map .num
  | .string parts => (StringPart.text? parts).map .str
  | .array items =>
    if nesting = 0 then none else (itemsToJson? (nesting - 1) items).map Json.array
  | .object fields =>
    if nesting = 0 then none else (fieldsToJson? (nesting - 1) fields).map Json.objectOfList

/-- The meanings of the items of an array. -/
def itemsToJson? (nesting : Nat) : List WrittenJson → Option (List Json)
  | [] => some []
  | item :: rest => do return (← toJson? nesting item) :: (← itemsToJson? nesting rest)

/-- The meanings of the fields of an object. -/
def fieldsToJson? (nesting : Nat) :
    List (List StringPart × WrittenJson) → Option (List (String × Json))
  | [] => some []
  | (key, value) :: rest => do
    let key ← StringPart.text? key
    return (key, ← toJson? nesting value) :: (← fieldsToJson? nesting rest)

end

end WrittenJson

namespace Json

/-- The number of arrays and objects that may stand inside one another. -/
def maxNesting : Nat := 127

/-- The value of a text. -/
def parse? (text : String) : Option Json := (WrittenJson.parse? text).bind (·.toJson? maxNesting)

end Json

end ControlLoop
