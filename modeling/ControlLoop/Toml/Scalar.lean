import ControlLoop.Config.Value
import ControlLoop.Toml.Text

/-!
# Numbers, truth values and dates in TOML

An integer has a sign and decimal digits, or no sign and the digits of another
base after its mark, and has to fit 64 bits. Between two digits one underscore
may stand. A float is the double nearest to what is written and must not exceed
all of them. A date has to exist.
-/

set_option autoImplicit false

namespace ControlLoop.Toml

/-- Digits of a base, between any two of which an underscore may stand. -/
def spacedDigits (base : Nat) : Parser (List Nat) := do
  let first ← Parser.digit base
  return first :: (← Parser.many do
    discard <| Parser.optional (Parser.char '_')
    Parser.digit base)

/-- Decimal digits without a leading zero, unless zero is all there is. -/
def decimalDigits : Parser (List Nat) := do
  match ← Parser.peek? with
  | some '0' => return [← Parser.digit 10]
  | _ => spacedDigits 10

/-- A sign, if there is one: whether it is a minus. -/
def sign : Parser Bool := do
  let c ← Parser.optional (Parser.satisfy fun c => c == '+' || c == '-')
  return c = some '-'

/-- An integer, if it fits 64 bits. -/
def bounded (n : Int) : Parser ConfigValue :=
  if -Int.pow 2 63 ≤ n ∧ n < Int.pow 2 63 then return .integer n else failure

/-- An integer in a base other than ten, after its mark. -/
def markedInteger (mark : String) (base : Nat) : Parser ConfigValue := do
  Parser.word mark
  bounded (Parser.ofDigits base (← spacedDigits base))

/-- An integer. -/
def integer : Parser ConfigValue :=
  markedInteger "0x" 16 <|> markedInteger "0o" 8 <|> markedInteger "0b" 2 <|> do
    let negative ← sign
    let size : Int := Parser.ofDigits 10 (← decimalDigits)
    bounded (if negative then -size else size)

/-- The digits after a point. -/
def fraction : Parser (List Nat) := do
  Parser.char '.'
  spacedDigits 10

/-- A power of ten after its mark. -/
def exponent : Parser Int := do
  discard <| Parser.satisfy fun c => c == 'e' || c == 'E'
  let negative ← sign
  let size : Int := Parser.ofDigits 10 (← spacedDigits 10)
  return if negative then -size else size

/-- A float in digits, with a fraction, a power of ten or both. -/
def digitFloat : Parser ConfigValue := do
  let negative ← sign
  let whole ← decimalDigits
  let part ← Parser.optional fraction
  let power ← Parser.optional exponent
  if part.isNone ∧ power.isNone then failure
  let digits := whole ++ part.getD []
  let shift := power.getD 0 - (part.getD []).length
  match Binary64.ofDecimal negative (Parser.ofDigits 10 digits) shift with
  | .infinite false => failure
  | x => return .float x

/-- An infinity, or what is no number. -/
def namedFloat : Parser ConfigValue := do
  let negative ← sign
  (do Parser.word "inf"; return .float (.infinite negative)) <|>
    (do Parser.word "nan"; return .float .nan)

/-- A truth value. -/
def boolean : Parser ConfigValue :=
  (do Parser.word "true"; return .boolean true) <|>
    (do Parser.word "false"; return .boolean false)

/-- The number of days in a month. -/
def daysIn (year month : Nat) : Nat :=
  if month = 2 then
    if year % 4 = 0 ∧ (year % 100 ≠ 0 ∨ year % 400 = 0) then 29 else 28
  else if month = 4 ∨ month = 6 ∨ month = 9 ∨ month = 11 then 30
  else 31

/-- A number of two digits between two bounds. -/
def twoDigits (low high : Nat) : Parser Unit := do
  let n ← Parser.digitsExactly 10 2
  if low ≤ n ∧ n ≤ high then return () else failure

/-- A day of the calendar. -/
def date : Parser Unit := do
  let year ← Parser.digitsExactly 10 4
  Parser.char '-'
  let month ← Parser.digitsExactly 10 2
  Parser.char '-'
  if 1 ≤ month ∧ month ≤ 12 then twoDigits 1 (daysIn year month) else failure

/-- A time of day. A minute may have a leap second. -/
def time : Parser Unit := do
  twoDigits 0 23
  Parser.char ':'
  twoDigits 0 59
  Parser.char ':'
  twoDigits 0 60
  discard <| Parser.optional do
    Parser.char '.'
    discard <| Parser.many1 (Parser.digit 10)

/-- The offset of a time from universal time. -/
def offset : Parser Unit :=
  (discard <| Parser.satisfy fun c => c == 'Z' || c == 'z') <|> do
    discard <| Parser.satisfy fun c => c == '+' || c == '-'
    twoDigits 0 23
    Parser.char ':'
    twoDigits 0 59

/-- A date with or without a time, or a time alone. -/
def momentShape : Parser Unit :=
  (do
    date
    discard <| Parser.optional do
      discard <| Parser.satisfy fun c => c == 'T' || c == 't' || c == ' '
      time
      discard <| Parser.optional offset) <|> time

/-- A date or a time, as it is written. -/
def moment : Parser ConfigValue := do
  let start ← get
  momentShape
  let left ← get
  return .moment (String.ofList (start.rest.take (start.size - left.size)))

/-- A value without parts. -/
def scalar : Parser ConfigValue :=
  (ConfigValue.text <$> text) <|> boolean <|> moment <|> digitFloat <|> namedFloat <|> integer

end ControlLoop.Toml
