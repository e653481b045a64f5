/-!
# Signals

A sleep can be cut short by a signal. A flag can be set and cleared any number
of times. A stopper can only be set, and keeps the first reason given for it.
-/

set_option autoImplicit false

namespace ControlLoop

/-- Why a long-running activity was asked to stop. -/
inductive StopReason where
  | done
  | filtersMismatch
  | resourceDeleted
  | operatorExiting
  | daemonSignalled
  | daemonCancelled
deriving DecidableEq, Repr

namespace StopReason

/-- The text of a reason. -/
def text : StopReason → String
  | done => "done"
  | filtersMismatch => "filters-mismatch"
  | resourceDeleted => "resource-deleted"
  | operatorExiting => "operator-exiting"
  | daemonSignalled => "daemon-signalled"
  | daemonCancelled => "daemon-cancelled"

/-- All the reasons. -/
def all : List StopReason :=
  [done, filtersMismatch, resourceDeleted, operatorExiting, daemonSignalled, daemonCancelled]

/-- The reason with a text. -/
def ofText? (s : String) : Option StopReason := all.find? (·.text == s)

end StopReason

/-- What can be done to the signals. -/
inductive SignalAction where
  | set
  | clear
  | stop (reason : StopReason)
deriving DecidableEq, Repr

/-- The signal that a sleep listens to. -/
inductive Wakeup where
  | flag
  | stopper
deriving DecidableEq, Repr

/-- The state of the signals. -/
structure Signals where
  flag : Bool
  /-- The reason of the stopper, once it is set. -/
  stopped : Option StopReason
deriving DecidableEq, Repr

namespace Signals

/-- No signal is set. -/
def quiet : Signals := ⟨false, none⟩

/-- Whether a signal is set. -/
def isSet (s : Signals) : Wakeup → Bool
  | .flag => s.flag
  | .stopper => s.stopped.isSome

/-- The signals after an action. -/
def act (s : Signals) : SignalAction → Signals
  | .set => { s with flag := true }
  | .clear => { s with flag := false }
  | .stop reason => { s with stopped := s.stopped <|> some reason }

/-- The signals after several actions. -/
def actAll (s : Signals) (actions : List SignalAction) : Signals := actions.foldl act s

end Signals

end ControlLoop
