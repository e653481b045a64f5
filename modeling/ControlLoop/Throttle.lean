import ControlLoop.World

/-!
# Throttling

A worker backs off after failures. A failure that may be retried opens a window,
during which the operation is told not to run; each further failure takes the
next delay of a sequence, the last of which repeats, and a success starts the
sequence anew. An open window is slept out before the operation, and one that it
opened after it. A sleep that is interrupted leaves the window open.
-/

set_option autoImplicit false

namespace ControlLoop

/-- What a worker remembers of its failures. -/
structure Throttle where
  /-- The end of the open window. -/
  activeUntil : Option Instant
  /-- The delays not used yet. -/
  source : Option (List Duration)
  /-- The delay of the last window. -/
  lastUsed : Option Duration
deriving DecidableEq, Repr

namespace Throttle

/-- There was no failure. -/
def idle : Throttle := ⟨none, none, none⟩

/-- Whether a window is open. -/
def isThrottling (t : Throttle) : Bool := t.activeUntil.isSome

/-- The throttle on one line, as long as no window is open. -/
def render? (t : Throttle) : Option String :=
  if t.isThrottling then none
  else
    let used := (t.lastUsed.map fun d => "Some(" ++ Duration.render d ++ ")").getD "None"
    some ("ThrottleState \x7b active_until: None, source_of_delays: " ++
      toString t.source.isSome ++ ", last_used_delay: " ++ used ++ " \x7d")

/-- The sequence starts anew. -/
def release (t : Throttle) : Throttle := { t with source := none, lastUsed := none }

/-- The delay for the next failure, and the delays left after it. Without a sequence in use, one
begins. -/
def nextDelay (t : Throttle) (delays : List Duration) : Option Duration × List Duration :=
  match t.source.getD delays with
  | d :: rest => (some d, rest)
  | [] => (t.lastUsed, [])

variable {σ α : Type}

/-- Sleeps until the open window is over. It stays open if the sleep is interrupted. -/
def waitOut (t : Throttle) (wakeup : Option Wakeup) : Activity σ Throttle := do
  match t.activeUntil with
  | none => return t
  | some windowEnd =>
    let remaining := windowEnd - (← Activity.now)
    match ← Activity.sleepOrWait (.single remaining) wakeup with
    | some _ => return t
    | none =>
      Activity.note .throttlingOver
      return { t with activeUntil := none }

/-- Takes a failure in, and opens a window if there is a delay for it. -/
def absorb (t : Throttle) (delays : List Duration) (cause : Error) : Activity σ Throttle := do
  match t.nextDelay delays with
  | (some delay, rest) =>
    let opened ← Activity.onClock fun c => (c.deadline delay, c)
    Activity.note (.throttling delay cause)
    return ⟨some opened, some rest, some delay⟩
  | (none, rest) =>
    Activity.note (.backoffUnconfigured cause)
    return { t with source := some rest }

/-- Runs an operation, which is told whether a window is closed. The answer is its value, or nothing
if its failure was taken in. A failure is returned as it is if it is fatal, of no interest, or of an
operation that was told not to run. -/
def run (t : Throttle) (delays : List Duration) (wakeup : Option Wakeup) (errors : Error → Bool)
    (operation : Bool → Attempt σ α) : Activity σ (Except Error (Option α) × Throttle) := do
  let t ← t.waitOut wakeup
  let shouldRun := !t.isThrottling
  match ← (operation shouldRun).run with
  | .ok value => return (.ok (some value), if shouldRun then t.release else t)
  | .error e =>
    if e.isFatal || !errors e || !shouldRun then return (.error e, t)
    else
      let t ← t.absorb delays e
      return (.ok none, ← t.waitOut wakeup)

end Throttle

end ControlLoop
