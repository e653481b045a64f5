import ControlLoop.CommandLine
import ControlLoop.Timestamp
import Std.Time.DateTime.Timestamp

/-!
# The simulator

Reads the files that the command line names, runs the script against the object
and prints the body at the end. The notes of the run go to the error stream.
-/

set_option autoImplicit false

namespace ControlLoop.Simulator

/-- What is found at a path. -/
def readContent (path : String) : IO FileContent := do
  try
    return .bytes (← IO.FS.readBinFile path)
  catch
    | .noFileOrDirectory .. => return .missing
    | e => return .unreadable (toString e)

/-- The nanoseconds from the start of 1970 to now. -/
def startOfRun : IO Nat := do
  let sinceEpoch ← Std.Time.Timestamp.now
  return sinceEpoch.toNanosecondsSinceUnixEpoch.toInt.toNat

/-- How the program is called. -/
def usage : String :=
  "Usage: control-loop --object <FILE> --script <FILE> [--config <FILE>] [--max-cycles <N>]"

/-- One line for a note. -/
def logLine (r : LogRecord) : String :=
  let cause := (r.notice.cause?.map fun e => " error=" ++ e.message).getD ""
  r.notice.level.name ++ " " ++ r.notice.message ++ cause

/-- Runs the simulator as the command line says. -/
def simulate (options : CommandLine.Options) : IO UInt32 := do
  let files : CommandLine.Files := {
    config := ← options.config.mapM readContent
    object := ← readContent options.object
    script := ← readContent options.script }
  let started ← startOfRun
  let stamp (n : Nat) := Timestamp.render (started + n)
  match CommandLine.execute files options.maxCycles stamp with
  | .error e =>
    IO.eprintln ("Error: " ++ e.message)
    return 1
  | .ok (output, world) =>
    for r in world.log do
      if r.notice.level ≠ .debug then IO.eprintln (logLine r)
    IO.print output
    return 0

end ControlLoop.Simulator

open ControlLoop in
/-- Runs the program. -/
def main (args : List String) : IO UInt32 := do
  match CommandLine.parse args with
  | .ok options => Simulator.simulate options
  | .error .helpWanted =>
    IO.println Simulator.usage
    return 0
  | .error .misuse =>
    IO.eprintln Simulator.usage
    return 2
