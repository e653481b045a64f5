import ControlLoop.Json.Reader
import ControlLoop.Worker

/-!
# Scripts

A script lists the outcomes of a handler's calls in advance, as a JSON array
with an entry for each call: a patch, delays in seconds, and a kind of failure
if the call is to fail. An entry is an object, of which unknown fields are
passed over unread and no known one may occur twice, or an array of the three in
this order, from whose end some may be missing.
-/

set_option autoImplicit false

namespace ControlLoop

/-- How a scripted call fails. -/
inductive FailureKind where
  | temporary
  | permanent
  | fatal
deriving DecidableEq, Repr

namespace FailureKind

/-- The kind with a name. -/
def ofName? : String → Option FailureKind
  | "temporary" => some temporary
  | "permanent" => some permanent
  | "fatal" => some fatal
  | _ => none

/-- The error of a scripted failure. -/
def error : FailureKind → Error
  | temporary => .temporary "scripted failure"
  | permanent => .permanent "scripted failure"
  | fatal => .fatal "scripted failure"

end FailureKind

/-- The entry of a script for one call. -/
structure ScriptedCycle where
  patch : Json := .null
  /-- Delays in seconds; some have no opinion. -/
  delays : List (Option Binary64) := []
  fail : Option FailureKind := none
deriving DecidableEq

/-- The result of the call that an entry describes. -/
def ScriptedCycle.result (cycle : ScriptedCycle) : Except Error Outcome :=
  match cycle.fail with
  | some kind => .error kind.error
  | none => (Patch.ofJson cycle.patch).map fun patch => ⟨patch, .ofSeconds cycle.delays⟩

namespace WrittenJson

/-- The nesting that is left inside an entry of a script. -/
def entryNesting : Nat := Json.maxNesting - 2

/-- Reads delays: an array of numbers, where null stands for no opinion. -/
def delays? : WrittenJson → Option (List (Option Binary64))
  | .array items => items.mapM fun
    | .null => some none
    | .number text => (Number.ofText? text).map fun n => some n.toBinary64
    | _ => none
  | _ => none

/-- Reads a kind of failure: its name, alone or as the key of a null. -/
def failure? : WrittenJson → Option (Option FailureKind)
  | .null => some none
  | .string name => (StringPart.text? name).bind fun s => (FailureKind.ofName? s).map some
  | .object [(name, .null)] =>
    (StringPart.text? name).bind fun s => (FailureKind.ofName? s).map some
  | _ => none

/-- The parts of an entry that were read so far. -/
structure EntryParts where
  patch : Option Json := none
  delays : Option (List (Option Binary64)) := none
  fail : Option (Option FailureKind) := none

/-- An entry, where missing parts have their defaults. -/
def EntryParts.toCycle (parts : EntryParts) : ScriptedCycle where
  patch := parts.patch.getD .null
  delays := parts.delays.getD []
  fail := parts.fail.getD none

/-- Reads one more field of an entry, which must not have been read before. -/
def addField? (parts : EntryParts) (field : List StringPart × WrittenJson) : Option EntryParts := do
  match ← StringPart.text? field.1 with
  | "patch" =>
    if parts.patch.isSome then none
    else return { parts with patch := some (← field.2.toJson? entryNesting) }
  | "delays" =>
    if parts.delays.isSome then none else return { parts with delays := some (← field.2.delays?) }
  | "fail" =>
    if parts.fail.isSome then none else return { parts with fail := some (← field.2.failure?) }
  | _ => return parts

/-- Reads an entry of a script. -/
def cycle? : WrittenJson → Option ScriptedCycle
  | .object fields => do return (← fields.foldlM addField? {}).toCycle
  | .array items =>
    match items with
    | [] => some {}
    | [patch] => do return { patch := ← patch.toJson? entryNesting }
    | [patch, delays] => do
      return { patch := ← patch.toJson? entryNesting, delays := ← delays.delays? }
    | [patch, delays, fail] => do
      return {
        patch := ← patch.toJson? entryNesting
        delays := ← delays.delays?
        fail := ← fail.failure? }
    | _ => none
  | _ => none

end WrittenJson

/-- The results of a handler's calls to come. -/
abbrev Script := List (Except Error Outcome)

namespace Script

/-- Reads the entries of a script. -/
def parseCycles (text : String) : Except Error (List ScriptedCycle) :=
  match WrittenJson.parse? text with
  | some (.array items) =>
    match items.mapM WrittenJson.cycle? with
    | some cycles => .ok cycles
    | none => .error (.json "an entry of the script cannot be read")
  | _ => .error (.json "a script is an array")

/-- Reads a script. -/
def parse (text : String) : Except Error Script :=
  (parseCycles text).map fun cycles => cycles.map ScriptedCycle.result

/-- The result of the next call and the script after it. Past its end nothing is wanted. -/
def next : Script → Except Error Outcome × Script
  | [] => (.ok .nothing, [])
  | result :: rest => (result, rest)

end Script

end ControlLoop
