import ControlLoop.Settings.File
import ControlLoop.Simulation

/-!
# The command line

The simulator is told the files of the object, of the script and, if there is
one, of the settings, and after how many cycles to stop at the latest. An option
is given once, with its value after it or attached to it. The body at the end is
printed over several lines.
-/

set_option autoImplicit false

namespace ControlLoop.CommandLine

/-- What the simulator is told to do. -/
structure Options where
  object : String
  script : String
  config : Option String
  maxCycles : Nat
deriving DecidableEq, Repr

/-- Why there is nothing to do. -/
inductive Refusal where
  | helpWanted
  | misuse
deriving DecidableEq, Repr

/-- The options given so far. -/
structure Given where
  object : Option String := none
  script : Option String := none
  config : Option String := none
  maxCycles : Option Nat := none

/-- An option that has a value. -/
inductive OptionName where
  | object
  | script
  | config
  | maxCycles
deriving DecidableEq, Repr

/-- The option with a long name. -/
def OptionName.ofLong? : String → Option OptionName
  | "object" => some object
  | "script" => some script
  | "config" => some config
  | "max-cycles" => some maxCycles
  | _ => none

/-- The option with a short name. -/
def OptionName.ofShort? : Char → Option OptionName
  | 'o' => some object
  | 's' => some script
  | 'c' => some config
  | _ => none

/-- One argument, read by itself. -/
inductive Argument where
  /-- An option and the value attached to it. -/
  | option (name : OptionName) (attached : Option String)
  | help
  /-- What follows is no option. -/
  | endOfOptions
  | unknown

/-- Whether an argument has the form of an option, so that it is no value of the one before. -/
def looksLikeOption (arg : String) : Bool :=
  match arg.toList with
  | '-' :: _ :: _ => true
  | _ => false

/-- An argument after its two dashes. -/
def readLong (text : List Char) : Argument :=
  let name := String.ofList (text.takeWhile (· != '='))
  let attached :=
    match text.dropWhile (· != '=') with
    | [] => none
    | _ :: value => some (String.ofList value)
  match OptionName.ofLong? name with
  | some option => .option option attached
  | none => if name = "help" ∧ attached.isNone then .help else .unknown

/-- An argument after its single dash. -/
def readShort (letter : Char) (text : List Char) : Argument :=
  match OptionName.ofShort? letter with
  | some option =>
    match text with
    | [] => .option option none
    | '=' :: value => .option option (some (String.ofList value))
    | value => .option option (some (String.ofList value))
  | none => if letter = 'h' then .help else .unknown

/-- Reads an argument by itself. -/
def readArgument (arg : String) : Argument :=
  match arg.toList with
  | ['-', '-'] => .endOfOptions
  | '-' :: '-' :: text => readLong text
  | '-' :: letter :: text => readShort letter text
  | _ => .unknown

/-- A number of cycles: digits, perhaps after a plus, that fit 64 bits. -/
def readCount? (text : String) : Option Nat :=
  let digits :=
    match text.toList with
    | '+' :: rest => rest
    | all => all
  if digits.isEmpty ∨ !digits.all Char.isDigit then none
  else
    let n := digits.foldl (fun n d => n * 10 + (d.toNat - '0'.toNat)) 0
    if n < Nat.pow 2 64 then some n else none

/-- A value that is not empty, for an option not given before. -/
def once (before : Option String) (value : String) : Option (Option String) :=
  if before.isSome ∨ value.isEmpty then none else some (some value)

/-- Takes the value of an option in. -/
def Given.add? (given : Given) (name : OptionName) (value : String) : Option Given := do
  match name with
  | .object => return { given with object := ← once given.object value }
  | .script => return { given with script := ← once given.script value }
  | .config => return { given with config := ← once given.config value }
  | .maxCycles =>
    if given.maxCycles.isSome then none
    else return { given with maxCycles := some (← readCount? value) }

/-- Reads arguments from left to right. The first one that is wrong, or that asks for help,
decides. -/
def readAll (given : Given) : List String → Except Refusal Given
  | [] => .ok given
  | arg :: rest =>
    match readArgument arg with
    | .help => .error .helpWanted
    | .unknown => .error .misuse
    | .endOfOptions => if rest.isEmpty then .ok given else .error .misuse
    | .option name (some value) =>
      match given.add? name value with
      | some given => readAll given rest
      | none => .error .misuse
    | .option name none =>
      match rest with
      | [] => .error .misuse
      | value :: rest =>
        if looksLikeOption value then .error .misuse
        else
          match given.add? name value with
          | some given => readAll given rest
          | none => .error .misuse

/-- Reads a command line. The object and the script have to be given. -/
def parse (args : List String) : Except Refusal Options :=
  match readAll {} args with
  | .error refusal => .error refusal
  | .ok given =>
    match given.object, given.script with
    | some object, some script =>
      .ok ⟨object, script, given.config, given.maxCycles.getD 100⟩
    | _, _ => .error .misuse

/-- What the files hold. -/
structure Files where
  config : Option FileContent
  object : FileContent
  script : FileContent

/-- Runs the simulator. The answer is what it prints and the world in which the run ended. -/
def execute (files : Files) (maxCycles : Nat) (stamp : Nat → String) :
    Except Error (String × World Scene) := do
  let settings ← match files.config with
    | some file => Settings.load file
    | none => .ok .default
  let text ← files.object.text
  let body ← match Json.parse? text with
    | some body => .ok body
    | none => .error (.json "the object is not JSON")
  let script ← Script.parse (← files.script.text)
  let (result, world) := Simulation.run settings body script maxCycles stamp
  match ← result with
  | some final => return (final.pretty 0 ++ "\n", world)
  | none => return ("", world)

end ControlLoop.CommandLine
