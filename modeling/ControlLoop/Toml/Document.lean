import ControlLoop.Toml.Scalar
import ControlLoop.Toml.Table

/-!
# TOML documents

A document is a sequence of lines: assignments to the top table, then headers,
each followed by assignments to the table that it names. Arrays and tables in
braces nest less than eighty deep, and a key has fewer than eighty parts.
-/

set_option autoImplicit false

namespace ControlLoop.Toml

/-- The bound on nesting and on the parts of a key. -/
def nestingLimit : Nat := 80

/-- One part of a key: a plain word or a short text. -/
def simpleKey : Parser String :=
  shortText <|> do
    let word ← Parser.takeWhile1 fun c => c.isAlphanum || c == '_' || c == '-'
    return String.ofList word

/-- A key with dots between its parts. -/
def dottedKey : Parser (List String) := do
  blanks
  let parts ← Parser.sepBy1 (do let k ← simpleKey; blanks; return k) (do Parser.char '.'; blanks)
  if parts.length < nestingLimit then return parts else failure

/-- A key, its way and its last part apart. -/
def splitKey : Parser (List String × String) := do
  let parts ← dottedKey
  match parts.getLast? with
  | some last => return (parts.dropLast, last)
  | none => failure

/-- A key, the equality sign and a value. -/
def assignment (value : Parser ConfigValue) : Parser Entries.Assignment := do
  let key ← splitKey
  Parser.char '='
  blanks
  return (key, ← value)

/-- Values between brackets. A comma may follow the last one, and lines may end anywhere. -/
def arrayOf (value : Parser ConfigValue) : Parser ConfigValue := do
  Parser.char '['
  layout
  let items ← Parser.sepBy (do let v ← value; layout; return v) (do Parser.char ','; layout)
  if !items.isEmpty then discard <| Parser.optional do Parser.char ','; layout
  Parser.char ']'
  return .list items

/-- Assignments between braces, on one line. -/
def inlineTableOf (value : Parser ConfigValue) : Parser ConfigValue := do
  Parser.char '\x7b'
  blanks
  let assignments ← Parser.sepBy (do let a ← assignment value; blanks; return a) (Parser.char ',')
  Parser.char '\x7d'
  match Entries.assignAll? [] assignments with
  | some entries => return .table (entryValues entries)
  | none => failure

/-- A value in which arrays and tables nest no deeper than `nesting`. -/
def value : (nesting : Nat) → Parser ConfigValue
  | 0 => scalar
  | nesting + 1 => arrayOf (value nesting) <|> inlineTableOf (value nesting) <|> scalar

/-- A line of a document. -/
inductive Line where
  | blank
  | assignment (a : Entries.Assignment)
  | header (key : List String × String)
  | repeatedHeader (key : List String × String)

/-- A header in single or double brackets. -/
def header : Parser Line :=
  (do
    Parser.word "[["
    let key ← splitKey
    Parser.word "]]"
    return .repeatedHeader key) <|> do
    Parser.char '['
    let key ← splitKey
    Parser.char ']'
    return .header key

/-- What a line holds, without its end. -/
def line : Parser Line := do
  blanks
  let content ← header <|> (Line.assignment <$> assignment (value (nestingLimit - 1)))
    <|> pure .blank
  blanks
  discard <| Parser.optional comment
  return content

/-- The lines of a document. A mark of the byte order may come first. -/
def lines : Parser (List Line) := do
  discard <| Parser.optional (Parser.char '\uFEFF')
  Parser.sepBy1 line newline

/-- A table under a header: the key, whether the header repeats, and the assignments. -/
structure Section where
  key : List String × String
  repeated : Bool
  assignments : List Entries.Assignment

/-- The assignments before the first header, and the sections. -/
def sections : List Line → List Entries.Assignment × List Section
  | [] => ([], [])
  | l :: ls =>
    let (front, rest) := sections ls
    match l with
    | .blank => (front, rest)
    | .assignment a => (a :: front, rest)
    | .header key => ([], ⟨key, false, front⟩ :: rest)
    | .repeatedHeader key => ([], ⟨key, true, front⟩ :: rest)

/-- Adds a section to the tables read so far. -/
def Section.addTo? (s : Section) (entries : Entries) : Option Entries :=
  let change := if s.repeated then Entries.appendTable? s.assignments s.key.2
    else Entries.openTable? s.assignments s.key.2
  Entries.modifyAt? change entries s.key.1

/-- The table that a document writes. -/
def parse? (document : String) : Option ConfigValue := do
  let (front, rest) := sections (← lines.parse? document)
  let top ← Entries.assignAll? [] front
  let all ← rest.foldlM (fun entries s => s.addTo? entries) top
  return .table (entryValues all)

end ControlLoop.Toml
