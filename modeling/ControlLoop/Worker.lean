import ControlLoop.Effects
import ControlLoop.Throttle

/-!
# Workers

A worker drives the cycles of one object. In each cycle a handler decides on a
patch and delays, which are then applied. Failures that may be retried open a
window of the worker's throttle, and a cycle in an open window does not ask the
handler. A cycle starts by clearing the flag: the body that it is given carries
whatever the flag announced.
-/

set_option autoImplicit false

namespace ControlLoop

/-- What a handler wants done. -/
structure Outcome where
  patch : Patch
  delays : DelaySet

/-- A handler that wants nothing done. -/
def Outcome.nothing : Outcome := ⟨.empty, .empty⟩

/-- Decides what is to be done with an object. -/
abbrev Handler (σ : Type) := Body → Attempt σ Outcome

/-- How a cycle ended. -/
inductive CycleOutcome where
  /-- Nothing was written and nothing is to be waited for. -/
  | applied
  /-- There was a write, a sleep or a touch, and another cycle will follow. -/
  | pending
  /-- A window was open and the handler was not asked. -/
  | skipped
  /-- The cycle failed and a window was opened for it. -/
  | throttled
deriving DecidableEq, Repr

/-- The name of an outcome. -/
def CycleOutcome.name : CycleOutcome → String
  | applied => "applied"
  | pending => "pending"
  | skipped => "skipped"
  | throttled => "throttled"

/-- What it takes to run the cycles of an object. -/
structure Worker (σ : Type) where
  handler : Handler σ
  effects : Effects σ
  /-- The backoff sequence. -/
  errorDelays : List Duration

namespace Worker

variable {σ : Type}

/-- A worker with the given settings. -/
def ofSettings (handler : Handler σ) (patcher : Patcher σ) (settings : Settings) : Worker σ where
  handler := handler
  effects := .ofSettings patcher settings
  errorDelays := settings.batching.delays

/-- Asks the handler and applies what it decides. -/
def attempt (worker : Worker σ) (body : Body) : Attempt σ CycleOutcome := do
  let outcome ← worker.handler body
  let settled ← worker.effects.apply body outcome.patch outcome.delays (some .flag)
  return if settled then .applied else .pending

/-- A cycle without its span: the flag is cleared and the attempt is throttled. -/
def cycle (worker : Worker σ) (throttle : Throttle) (body : Body) :
    Activity σ (Except Error CycleOutcome × Throttle) := do
  Activity.onClock fun c => ((), c.act .clear)
  let (result, throttle) ← throttle.run worker.errorDelays (some .flag) Error.isThrottleable
    fun shouldRun => if shouldRun then worker.attempt body else return .skipped
  return (result.map fun outcome => outcome.getD .throttled, throttle)

/-- Runs a cycle for a body. -/
def runCycle (worker : Worker σ) (throttle : Throttle) (body : Body) :
    Activity σ (Except Error CycleOutcome × Throttle) :=
  Activity.within (.ofBody body) (worker.cycle throttle body)

end Worker

end ControlLoop
