import ControlLoop.Diff
import ControlLoop.Duration
import ControlLoop.Patch.Basic

/-!
# The log

What is worth noting about a cycle, and how each note is worded. A note made
during a worker's cycle names the object of the cycle.
-/

set_option autoImplicit false

namespace ControlLoop

/-- How much a note matters. -/
inductive LogLevel where
  | debug
  | info
  | warn
  | error
deriving DecidableEq, Repr

/-- The name of a level. -/
def LogLevel.name : LogLevel → String
  | debug => "DEBUG"
  | info => "INFO"
  | warn => "WARN"
  | error => "ERROR"

/-- What happened. -/
inductive Notice where
  | patching (patch : Patch)
  | objectGone
  | inconsistent (diff : Diff)
  | sleepSkipped (left : Duration)
  | sleeping (delay : Duration)
  | sleepingCapped (delay cap : Duration)
  | sleepInterrupted (left : Duration)
  | throttling (delay : Duration) (cause : Error)
  | backoffUnconfigured (cause : Error)
  | throttlingOver

namespace Notice

/-- How much it matters. -/
def level : Notice → LogLevel
  | inconsistent _ => .warn
  | throttling .. | backoffUnconfigured _ => .error
  | throttlingOver => .info
  | _ => .debug

/-- The error that caused it. -/
def cause? : Notice → Option Error
  | throttling _ cause | backoffUnconfigured cause => some cause
  | _ => none

/-- The words for it. -/
def message : Notice → String
  | patching patch => "Patching with: " ++ patch.render
  | objectGone => "Patching skipped: the object is gone"
  | inconsistent diff => "Patching failed with inconsistencies: " ++ diff.render
  | sleepSkipped left =>
    "Sleeping was skipped because of the patch, " ++ Duration.render left ++ " left."
  | sleeping delay => "Sleeping for " ++ Duration.render delay ++ " for the delayed handlers."
  | sleepingCapped delay cap =>
    "Sleeping for " ++ Duration.render delay ++ " (capped " ++ Duration.render cap ++
      ") for the delayed handlers."
  | sleepInterrupted left =>
    "Sleeping was interrupted by new changes, " ++ Duration.render left ++ " left."
  | throttling delay _ =>
    "Throttling for " ++ Duration.render delay ++ " due to an unexpected error"
  | backoffUnconfigured _ => "Unexpected error with no backoff delays configured"
  | throttlingOver => "Throttling is over. Switching back to normal operations."

end Notice

/-- The object that a cycle is about. -/
structure Span where
  name : String
  space : String
deriving DecidableEq, Repr

/-- The span of a body's object. What has no name is named by the empty text. -/
def Span.ofBody (body : Body) : Span :=
  ⟨(Body.name? body).getD "", (Body.namespace? body).getD ""⟩

/-- A note in the log. -/
structure LogRecord where
  notice : Notice
  span : Option Span

end ControlLoop
