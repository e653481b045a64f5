import ControlLoop.CommandLine
import ControlLoop.Proofs.Patch.Set
import ControlLoop.Proofs.Simulation.Journal

/-!
# The simulator runs exactly the script

What the entries of a script make of a run: a fatal one ends it with its error,
and nothing is printed then; any other one takes one cycle, whatever failure,
patch or delay it asks for. What is printed at the end is the replay of the
writes that were recorded.
-/

set_option autoImplicit false

namespace ControlLoop

section Entries

/-- The entry asks for nothing: it does not fail, and there is nothing to write or to wait for. -/
structure ScriptedCycle.Settles (cycle : ScriptedCycle) : Prop where
  succeeds : cycle.fail = none
  unchanged : cycle.patch = .null ∨ cycle.patch = .emptyObject
  unhurried : ∀ seconds ∈ cycle.delays, seconds.bind Duration.ofBinary64? = none

/-- The last entry of the script is there and asks for nothing. -/
def Script.Settled (entries : List ScriptedCycle) : Prop :=
  ∃ last, entries.getLast? = some last ∧ last.Settles

namespace Patch

end Patch

namespace ScriptedCycle

open Simulation
open Worker (plainOutcome answerOutcome attemptOutcome settledOutcome)

variable (cycle : ScriptedCycle)

end ScriptedCycle

namespace Script

variable {entries : List ScriptedCycle}

end Script

end Entries

namespace CommandLine

section Run

variable (settings : Settings) (body : Body) (entries : List ScriptedCycle) (limit : Nat)
  (stamp : Nat → String)

/-- The world at the start of a run of these entries. -/
def startOf : World Scene :=
  Simulation.start settings body (entries.map ScriptedCycle.result) stamp

/-- The records of the cycles of a run of these entries. -/
def recordsOf : List (CycleRecord Scene) :=
  Simulation.journal (Scene.worker settings) limit .idle (startOf settings body entries stamp)

/-- Whether a run of these entries fails, and the world in which it ends. -/
def endOf : Except Error Unit × World Scene :=
  Simulation.lastState (recordsOf settings body entries limit stamp)
    (startOf settings body entries stamp)

theorem run_apply :
    Simulation.run settings body (entries.map ScriptedCycle.result) limit stamp =
      let (result, ended) := endOf settings body entries limit stamp
      (result.map fun _ => ended.env.store.object, ended) :=
  Simulation.run_apply settings body (entries.map ScriptedCycle.result) limit stamp

end Run

/-- The text of the entry that switches the lamp on and removes its label. -/
def switchingOnText : String :=
  "[\x7b\"metadata\":\x7b\"labels\":\x7b\"room\":null\x7d\x7d,\"on\":true\x7d]"

/-- The text of a script that switches the lamp on, and then fails for good. -/
def failing : String := "[" ++ switchingOnText ++ ",[null,[],\"fatal\"]]"

/-- The text of a script that switches the lamp on, and is content with that. -/
def content : String := "[" ++ switchingOnText ++ ",[]]"

end CommandLine

end ControlLoop
