import ControlLoop.Json.Number

/-!
# JSON as it is written

The grammar of JSON texts. What it reads keeps all that a reader of the text
might ask about: a key may occur twice, and the characters of a string and the
digits of a number are not yet put together. `Json/Reader.lean` gives a written
value its meaning.
-/

set_option autoImplicit false

namespace ControlLoop

/-- A piece of a string: a character, or a sixteen bit unit written by its code. -/
inductive StringPart where
  | plain (c : Char)
  | unit (code : Nat)
deriving DecidableEq

/-- A value as it is written. -/
inductive WrittenJson where
  | null
  | bool (b : Bool)
  | number (text : NumberText)
  | string (parts : List StringPart)
  | array (items : List WrittenJson)
  | object (fields : List (List StringPart × WrittenJson))

namespace StringPart

/-- The character that stands after a backslash for another one. -/
def escaped? : Char → Option Char
  | '"' => some '"'
  | '\\' => some '\\'
  | '/' => some '/'
  | 'b' => some '\x08'
  | 'f' => some '\x0c'
  | 'n' => some '\n'
  | 'r' => some '\r'
  | 't' => some '\t'
  | _ => none

/-- One piece of a string. Control characters have to be escaped. -/
def parser : Parser StringPart := do
  let c ← Parser.satisfy fun c => c != '"' && ' ' ≤ c
  if c != '\\' then return .plain c
  let e ← Parser.satisfy fun _ => true
  if e == 'u' then return .unit (← Parser.digitsExactly 16 4)
  match escaped? e with
  | some c => return .plain c
  | none => failure

/-- A string between its quotes. -/
def quoted : Parser (List StringPart) := do
  Parser.char '"'
  let parts ← Parser.many parser
  Parser.char '"'
  return parts

end StringPart

namespace WrittenJson

/-- The blanks that may stand between any two tokens. -/
def blanks : Parser Unit :=
  Parser.skipWhile fun c => c == ' ' || c == '\n' || c == '\t' || c == '\r'

/-- A parser and the blanks after what it reads. -/
def token {α : Type} (p : Parser α) : Parser α := do
  let a ← p
  blanks
  return a

/-- A key, a colon and a value. -/
def field (value : Parser WrittenJson) : Parser (List StringPart × WrittenJson) := do
  let key ← token StringPart.quoted
  token (Parser.char ':')
  return (key, ← value)

/-- Values between brackets. -/
def arrayOf (value : Parser WrittenJson) : Parser WrittenJson := do
  token (Parser.char '[')
  let items ← Parser.sepBy value (token (Parser.char ','))
  token (Parser.char ']')
  return .array items

/-- Fields between braces. -/
def objectOf (value : Parser WrittenJson) : Parser WrittenJson := do
  token (Parser.char '\x7b')
  let fields ← Parser.sepBy (field value) (token (Parser.char ','))
  token (Parser.char '\x7d')
  return .object fields

/-- A value of no more than this nesting, and the blanks after it. -/
def value : Nat → Parser WrittenJson
  | 0 => failure
  | nesting + 1 => do
    match ← Parser.peek? with
    | some '[' => arrayOf (value nesting)
    | some '\x7b' => objectOf (value nesting)
    | some '"' => .string <$> token StringPart.quoted
    | some 'n' => token do Parser.word "null"; return .null
    | some 't' => token do Parser.word "true"; return .bool true
    | some 'f' => token do Parser.word "false"; return .bool false
    | _ => .number <$> token NumberText.parser

/-- The value that a text writes. A text nests no deeper than it is long. -/
def parse? (text : String) : Option WrittenJson :=
  (do blanks; value (text.length + 1)).parse? text

end WrittenJson

end ControlLoop
