import ControlLoop.Clock
import ControlLoop.Log

/-!
# The world of a cycle

An activity acts on a clock, writes to a log and draws fresh stamps. Whatever
else it acts on, such as a store, is the environment. An attempt is an activity
that may fail; what it did before it failed stays done.
-/

set_option autoImplicit false

namespace ControlLoop

/-- All that activities act on, with an environment of some type. -/
structure World (σ : Type) where
  clock : Clock
  /-- The notes made so far, the first one first. -/
  log : List LogRecord := []
  /-- The object that the present cycle is about. -/
  span : Option Span := none
  /-- The stamps, no two of which are alike. -/
  stamp : Nat → String
  /-- The number of stamps drawn so far. -/
  stampsDrawn : Nat := 0
  env : σ

/-- Something that happens in a world. -/
abbrev Activity (σ : Type) := StateM (World σ)

/-- Something that happens in a world and may fail. -/
abbrev Attempt (σ : Type) := ExceptT Error (Activity σ)

namespace Activity

variable {σ α : Type}

/-- Lets something happen to the clock. -/
def onClock (f : Clock → α × Clock) : Activity σ α := fun w =>
  let (a, clock) := f w.clock
  (a, { w with clock := clock })

/-- The present instant. -/
def now : Activity σ Instant := fun w => (w.clock.now, w)

/-- Makes a note. -/
def note (notice : Notice) : Activity σ Unit := fun w =>
  ((), { w with log := w.log ++ [⟨notice, w.span⟩] })

/-- A stamp that was not drawn before. -/
def drawStamp : Activity σ String := fun w =>
  (w.stamp w.stampsDrawn, { w with stampsDrawn := w.stampsDrawn + 1 })

/-- Sleeps for the shortest of the delays, or until the signal is set; the answer is the time left
then. -/
def sleepOrWait (delays : DelaySet) (wakeup : Option Wakeup) : Activity σ (Option Duration) :=
  onClock fun c => c.sleepOrWait delays wakeup

/-- An activity whose notes name an object. -/
def within (span : Span) (activity : Activity σ α) : Activity σ α := fun w =>
  let (a, after) := activity { w with span := some span }
  (a, { after with span := w.span })

end Activity

namespace Attempt

variable {σ α : Type}

/-- An activity that does not fail. -/
def lift (activity : Activity σ α) : Attempt σ α := ExceptT.lift activity

/-- Makes a note. -/
def note (notice : Notice) : Attempt σ Unit := lift (Activity.note notice)

end Attempt

end ControlLoop
