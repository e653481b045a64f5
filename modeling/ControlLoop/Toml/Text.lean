import ControlLoop.Text.Parser

/-!
# Texts, blanks and comments in TOML

A text is written on one line or over several, and either with escapes or just
as it is. A line ends with a line feed, which a carriage return may precede.
-/

set_option autoImplicit false

namespace ControlLoop.Toml

/-- A character outside of ASCII. -/
def isBeyondAscii (c : Char) : Bool := 0x80 ≤ c.toNat

/-- A character of ASCII that can be seen, a blank or a tab. -/
def isShown (c : Char) : Bool := c == '\t' || (' ' ≤ c && c ≤ '~')

/-- Blanks within a line. -/
def blanks : Parser Unit := Parser.skipWhile fun c => c == ' ' || c == '\t'

/-- The end of a line. -/
def newline : Parser Unit := Parser.char '\n' <|> Parser.word "\r\n"

/-- A comment, up to the end of its line. -/
def comment : Parser Unit := do
  Parser.char '#'
  Parser.skipWhile fun c => isShown c || isBeyondAscii c

/-- Blanks, comments and ends of lines. -/
def layout : Parser Unit := do
  blanks
  discard <| Parser.many do
    discard <| Parser.optional comment
    newline
    blanks
  return ()

/-- The character with this code, if it is the code of one. -/
def charOfCode (code : Nat) : Parser Char :=
  if code.isValidChar then return Char.ofNat code else failure

/-- A character written with a backslash. -/
def escape : Parser Char := do
  Parser.char '\\'
  match ← Parser.satisfy fun _ => true with
  | 'b' => return '\x08'
  | 't' => return '\t'
  | 'n' => return '\n'
  | 'f' => return '\x0c'
  | 'r' => return '\r'
  | '"' => return '"'
  | '\\' => return '\\'
  | 'u' => charOfCode (← Parser.digitsExactly 16 4)
  | 'U' => charOfCode (← Parser.digitsExactly 16 8)
  | _ => failure

/-- A run of characters that stand for themselves between quotes of the given kind. -/
def plainRun (quote : Char) : Parser (List Char) :=
  Parser.takeWhile1 fun c =>
    (isShown c || isBeyondAscii c) && c != quote && (c != '\\' || quote == '\'')

/-- An escaped character, where escapes are allowed. -/
def escapedRun (quote : Char) : Parser (List Char) :=
  if quote == '"' then return [← escape] else failure

/-- A text on one line between quotes of the given kind. Only double quotes allow escapes. -/
def lineText (quote : Char) : Parser String := do
  Parser.char quote
  let runs ← Parser.many (plainRun quote <|> escapedRun quote)
  Parser.char quote
  return String.ofList runs.flatten

/-- A backslash at the end of a line hides the blanks and ends of lines that follow. -/
def hiddenBreak : Parser (List Char) := do
  Parser.char '\\'
  blanks
  newline
  discard <| Parser.many (newline <|> discard (Parser.takeWhile1 fun c => c == ' ' || c == '\t'))
  return []

/-- One or two quotes inside a text of several lines. -/
def innerQuotes (quote : Char) : Parser (List Char) := do
  let run ← Parser.takeWhile1 (· == quote)
  if run.length < 3 then return run else failure

/-- A text over several lines between three quotes of the given kind. Up to two quotes may stand
before the closing three, and an end of line after the opening three is left out. -/
def blockText (quote : Char) : Parser String := do
  Parser.chars [quote, quote, quote]
  discard <| Parser.optional newline
  let lineBreak : Parser (List Char) := do newline; return ['\n']
  let hidden := if quote == '"' then hiddenBreak else failure
  let runs ← Parser.many
    (plainRun quote <|> lineBreak <|> hidden <|> escapedRun quote <|> innerQuotes quote)
  let closing ← Parser.takeWhile (· == quote)
  if closing.length < 3 ∨ 5 < closing.length then failure
  else return String.ofList (runs.flatten ++ closing.drop 3)

/-- A text on one line. -/
def shortText : Parser String := lineText '"' <|> lineText '\''

/-- A text. -/
def text : Parser String := blockText '"' <|> lineText '"' <|> blockText '\'' <|> lineText '\''

end ControlLoop.Toml
