/-!
# Parsers

A parser reads from the front of what is left of a text and returns what it read
together with the rest, or fails. Alternatives start again from the same place.
Repetition stops at the first round that fails or reads nothing, so every
parser here is total. What is left is kept with its length, which makes the
question whether a round read anything one comparison of numbers.
-/

set_option autoImplicit false

namespace ControlLoop

/-- What is left to read of a text. -/
structure Input where
  rest : List Char
  /-- The number of characters left. -/
  size : Nat
  size_eq : size = rest.length

namespace Input

/-- All of these characters are left. -/
def ofList (cs : List Char) : Input := ⟨cs, cs.length, rfl⟩

@[simp] theorem rest_ofList (cs : List Char) : (ofList cs).rest = cs := rfl

@[simp] theorem ofList_rest (s : Input) : ofList s.rest = s := by
  obtain ⟨rest, size, rfl⟩ := s
  rfl

@[ext] theorem ext {s t : Input} (h : s.rest = t.rest) : s = t := by
  rw [← ofList_rest s, ← ofList_rest t, h]

/-- What is left after the first `n` characters. -/
def drop (s : Input) (n : Nat) : Input := ⟨s.rest.drop n, s.size - n, by simp [s.size_eq]⟩

@[simp] theorem rest_drop (s : Input) (n : Nat) : (s.drop n).rest = s.rest.drop n := rfl

end Input

/-- Reads a value from the front of the input, or fails. -/
abbrev Parser := StateT Input Option

namespace Parser

variable {α β : Type}

/-- Reads the whole text as one value. -/
def parse? (p : Parser α) (text : String) : Option α :=
  match p.run (.ofList text.toList) with
  | some (a, s) => if s.rest.isEmpty then some a else none
  | none => none

/-- The character that comes next, if there is one. -/
def peek? : Parser (Option Char) := do return (← get).rest.head?

/-- One character that passes the test. -/
def satisfy (test : Char → Bool) : Parser Char := fun s =>
  match s.rest with
  | c :: _ => if test c then some (c, s.drop 1) else none
  | [] => none

/-- This character. -/
def char (c : Char) : Parser Unit := do discard <| satisfy (· == c)

/-- These characters in order. -/
def chars : List Char → Parser Unit
  | [] => return ()
  | c :: cs => do char c; chars cs

/-- This text. -/
def word (text : String) : Parser Unit := chars text.toList

/-- The longest run of characters that pass the test. -/
def takeWhile (test : Char → Bool) : Parser (List Char) := fun s =>
  let run := s.rest.takeWhile test
  some (run, s.drop run.length)

/-- The longest run of characters that pass the test, which must not be empty. -/
def takeWhile1 (test : Char → Bool) : Parser (List Char) := do
  let run ← takeWhile test
  if run.isEmpty then failure else return run

/-- Passes over the longest run of characters that pass the test. -/
def skipWhile (test : Char → Bool) : Parser Unit := do discard <| takeWhile test

/-- A value, or nothing where there is none. -/
def optional (p : Parser α) : Parser (Option α) := some <$> p <|> pure none

/-- A value if it is there and otherwise the given one. -/
def orDefault (p : Parser α) (a : α) : Parser α := p <|> pure a

/-- Further rounds of a parser after those already read, latest first. -/
def manyLoop (p : Parser α) (done : List α) (s : Input) : List α × Input :=
  match p s with
  | some (a, t) => if t.size < s.size then manyLoop p (a :: done) t else (done.reverse, s)
  | none => (done.reverse, s)
termination_by s.size

/-- As many values as there are. -/
def many (p : Parser α) : Parser (List α) := fun s => some (manyLoop p [] s)

/-- As many values as there are, at least one. -/
def many1 (p : Parser α) : Parser (List α) := do
  let first ← p
  return first :: (← many p)

/-- Values with a separator between each two. -/
def sepBy1 (p : Parser α) (separator : Parser β) : Parser (List α) := do
  let first ← p
  return first :: (← many (do discard separator; p))

/-- Values with a separator between each two, possibly none. -/
def sepBy (p : Parser α) (separator : Parser β) : Parser (List α) :=
  orDefault (sepBy1 p separator) []

/-- The value of a digit in bases up to sixteen. -/
def digitValue? (c : Char) : Option Nat :=
  if c.isDigit then some (c.toNat - '0'.toNat)
  else if 'a' ≤ c ∧ c ≤ 'f' then some (c.toNat - 'a'.toNat + 10)
  else if 'A' ≤ c ∧ c ≤ 'F' then some (c.toNat - 'A'.toNat + 10)
  else none

/-- One digit of a base, by its value. -/
def digit (base : Nat) : Parser Nat := do
  let some d := digitValue? (← satisfy fun _ => true) | failure
  if d < base then return d else failure

/-- The number written by digits of a base, the leading one first. -/
def ofDigits (base : Nat) (digits : List Nat) : Nat := digits.foldl (fun n d => n * base + d) 0

/-- A number of exactly this many digits. -/
def digitsExactly (base : Nat) : Nat → Parser Nat
  | 0 => return 0
  | n + 1 => do
    let front ← digitsExactly base n
    return front * base + (← digit base)

end Parser

end ControlLoop
