/-!
# Errors

Why an operation failed. Two questions are asked of an error: whether it has to
end the run, and whether it may be retried after a pause.
-/

set_option autoImplicit false

namespace ControlLoop

/-- The causes of failure, each with what is known of it. -/
inductive Error where
  /-- A write was refused, or a patch is none. -/
  | patch (reason : String)
  /-- A handler failed and expects to succeed later. -/
  | temporary (reason : String)
  /-- A handler failed and expects to fail again. -/
  | permanent (reason : String)
  /-- A handler asks for the run to end. -/
  | fatal (reason : String)
  /-- The run was told to end. -/
  | cancelled
  /-- The settings cannot be read. -/
  | config (reason : String)
  /-- A file cannot be read. -/
  | file (reason : String)
  /-- A JSON text cannot be read. -/
  | json (reason : String)
deriving DecidableEq, Repr

namespace Error

/-- The text shown for an error. -/
def message : Error → String
  | patch reason => "patch failed: " ++ reason
  | temporary reason => "temporary error: " ++ reason
  | permanent reason => "permanent error: " ++ reason
  | fatal reason => "fatal error: " ++ reason
  | cancelled => "cancelled"
  | config reason => "config error: " ++ reason
  | file reason => "io error: " ++ reason
  | json reason => "json error: " ++ reason

/-- Whether the error ends the run and must never be held back. -/
def isFatal : Error → Bool
  | fatal _ | cancelled => true
  | _ => false

/-- Whether a worker may retry after a pause. -/
def isThrottleable : Error → Bool
  | patch _ | temporary _ | permanent _ | file _ => true
  | _ => false

end Error

end ControlLoop
