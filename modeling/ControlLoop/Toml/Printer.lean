import ControlLoop.Binary64.Layout
import ControlLoop.Config.Value

/-!
# Writing TOML

A document is written as sections under headers with an empty line between each
two. A section has one assignment on a line. A list of two or more items has
each item on a line of its own. A text takes the first of five forms that can
hold it without more escapes than the form needs.
-/

set_option autoImplicit false

namespace ControlLoop.Toml

/-- Floats are never written with a power of ten, and ties go away from zero. -/
def layoutOfFloats : Binary64.Layout where
  positional _ := true
  tie := .awayFromZero

/-- The text of a float. -/
def renderFloat : Binary64 → String
  | .finite x => x.render layoutOfFloats
  | .infinite negative => if negative then "-inf" else "inf"
  | .nan => "nan"

/-- A character that no form can hold unescaped. -/
def isControl (c : Char) : Bool := (c < ' ' && c != '\t' && c != '\n') || c == '\x7f'

/-- The length of the longest run of a character, where `current` of them went before. -/
def longestRun (c : Char) (current : Nat) : List Char → Nat
  | [] => current
  | d :: ds =>
    if d = c then longestRun c (current + 1) ds else max current (longestRun c 0 ds)

/-- An upper-case digit of a value below sixteen. -/
def hexDigit (n : Nat) : Char := (Nat.digitChar n).toUpper

/-- The escape of a character by its code. -/
def codeEscape (c : Char) : List Char :=
  let n := c.toNat
  ['\\', 'u', hexDigit (n / 4096 % 16), hexDigit (n / 256 % 16), hexDigit (n / 16 % 16),
    hexDigit (n % 16)]

/-- A character between double quotes. Every quote is escaped on one line, and the third of a run
over several. -/
def escapeIn (block : Bool) (quotes : Nat) (c : Char) : List Char :=
  match c with
  | '\\' => ['\\', '\\']
  | '\x08' => ['\\', 'b']
  | '\t' => ['\\', 't']
  | '\x0c' => ['\\', 'f']
  | '\r' => ['\\', 'r']
  | '\n' => if block then ['\n'] else ['\\', 'n']
  | '"' => if block && quotes < 2 then ['"'] else ['\\', '"']
  | c => if isControl c then codeEscape c else [c]

/-- Characters between double quotes, where `quotes` quotes went before unescaped. -/
def escapeAll (block : Bool) (quotes : Nat) : List Char → List Char
  | [] => []
  | c :: cs =>
    let next := if c = '"' ∧ quotes < 2 then quotes + 1 else 0
    escapeIn block quotes c ++ escapeAll block next cs

/-- A text in one of the forms. -/
def renderText (s : String) : String :=
  let cs := s.toList
  let control := cs.any isControl
  let backslash := cs.contains '\\'
  let doubles := longestRun '"' 0 cs
  let singles := longestRun '\'' 0 cs
  let lines := cs.contains '\n'
  let opening := if lines then "\n" else ""
  if !control && !backslash && doubles == 0 && !lines then
    "\"" ++ String.ofList (escapeAll false 0 cs) ++ "\""
  else if !control && singles == 0 && !lines then "'" ++ s ++ "'"
  else if !control && !backslash && doubles ≤ 2 then
    "\"\"\"" ++ opening ++ String.ofList (escapeAll true 0 cs) ++ "\"\"\""
  else if !control && singles ≤ 2 then "'''" ++ opening ++ s ++ "'''"
  else if lines then "\"\"\"" ++ opening ++ String.ofList (escapeAll true 0 cs) ++ "\"\"\""
  else "\"" ++ String.ofList (escapeAll false 0 cs) ++ "\""

/-- A list of the given items. -/
def renderList (items : List String) : String :=
  match items with
  | [] => "[]"
  | [item] => "[" ++ item ++ "]"
  | items => "[\n" ++ String.join (items.map fun item => "    " ++ item ++ ",\n") ++ "]"

/-- A value on the right of an assignment. Integers above `2 ^ 63 - 1` and values of other kinds
cannot be written. -/
def renderValue? : ConfigValue → Option String
  | .boolean b => some (if b then "true" else "false")
  | .integer n => if n < Int.pow 2 63 then some (toString n) else none
  | .float x => some (renderFloat x)
  | .text s => some (renderText s)
  | .list items => renderItems? items |>.map renderList
  | .moment written => some written
  | .null | .table _ => none
where
  /-- The items of a list. -/
  renderItems? : List ConfigValue → Option (List String)
    | [] => some []
    | item :: rest => do return (← renderValue? item) :: (← renderItems? rest)

/-- A section: its name and its assignments. -/
abbrev SectionText := String × List (String × ConfigValue)

/-- A section under its header. -/
def renderSection? (s : SectionText) : Option String := do
  let lines ← s.2.mapM fun entry => do
    return entry.1 ++ " = " ++ (← renderValue? entry.2) ++ "\n"
  return "[" ++ s.1 ++ "]\n" ++ String.join lines

/-- A document of sections. -/
def render? (sections : List SectionText) : Option String := do
  return "\n".intercalate (← sections.mapM renderSection?)

end ControlLoop.Toml
