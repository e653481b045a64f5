import ControlLoop.Binary64.Layout
import ControlLoop.Json.Basic

/-!
# Writing JSON

A value is written on one line without blanks, or spread over lines with one
item or field on each. Fields stand in the order of their keys. In a string the
quote, the backslash and the control characters are escaped, and nothing else.
-/

set_option autoImplicit false

namespace ControlLoop

/-- Doubles are written positionally from `10 ^ -5` to below `10 ^ 16`, and ties go to the even
digit. -/
def Number.layout : Binary64.Layout where
  positional leading := -5 ≤ leading && leading < 16
  tie := .toEven

/-- The text of a number. -/
def Number.render : Number → String
  | .integer n => toString n
  | .double x => x.render layout

namespace Json

/-- The digit of a value below sixteen. -/
def hexDigit (n : Nat) : Char := Nat.digitChar n

/-- The characters that stand for one character inside a string. -/
def escape (c : Char) : List Char :=
  if c = '"' then ['\\', '"']
  else if c = '\\' then ['\\', '\\']
  else if c = '\x08' then ['\\', 'b']
  else if c = '\x0c' then ['\\', 'f']
  else if c = '\n' then ['\\', 'n']
  else if c = '\r' then ['\\', 'r']
  else if c = '\t' then ['\\', 't']
  else if c < ' ' then ['\\', 'u', '0', '0', hexDigit (c.toNat / 16), hexDigit (c.toNat % 16)]
  else [c]

/-- A string between quotes. -/
def quote (s : String) : String := String.ofList ('"' :: s.toList.flatMap escape ++ ['"'])

/-- The value on one line. -/
def compact : Json → String
  | .null => "null"
  | .bool b => if b then "true" else "false"
  | .num n => n.render
  | .str s => quote s
  | .arr _ item => "[" ++ ",".intercalate (List.ofFn fun i => (item i).compact) ++ "]"
  | .obj keys value =>
    let field (k : {k // k ∈ keys}) := quote k.1 ++ ":" ++ (value k).compact
    "\x7b" ++ ",".intercalate (keys.members.map field) ++ "\x7d"

/-- Parts between brackets, each on a line of its own; none at all leave the brackets empty. -/
def spread (opening closing : String) (indent : Nat) (parts : List String) : String :=
  if parts.isEmpty then opening ++ closing
  else
    let line (depth : Nat) := "\n" ++ String.ofList (List.replicate (2 * depth) ' ')
    opening ++ ",".intercalate (parts.map (line (indent + 1) ++ ·)) ++ line indent ++ closing

/-- The value over several lines, two blanks to a level, below the given number of levels. -/
def pretty : Json → (indent : Nat) → String
  | .arr _ item, indent => spread "[" "]" indent (List.ofFn fun i => (item i).pretty (indent + 1))
  | .obj keys value, indent =>
    let field (k : {k // k ∈ keys}) := quote k.1 ++ ": " ++ (value k).pretty (indent + 1)
    spread "\x7b" "\x7d" indent (keys.members.map field)
  | .null, _ => "null"
  | .bool b, _ => if b then "true" else "false"
  | .num n, _ => n.render
  | .str s, _ => quote s

end Json

end ControlLoop
