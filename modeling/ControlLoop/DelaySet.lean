import ControlLoop.Duration

/-!
# Delay sets

Several parties may say how long to wait until the next cycle. Some of them have
no opinion. The shortest delay that anyone asked for binds.
-/

set_option autoImplicit false

namespace ControlLoop

/-- The delays that were asked for, one for each party; some have no opinion. -/
structure DelaySet where
  entries : List (Option Duration)
deriving DecidableEq

namespace DelaySet

/-- Nobody was asked. -/
def empty : DelaySet := ⟨[]⟩

/-- A single delay. -/
def single (d : Duration) : DelaySet := ⟨[some d]⟩

/-- The listed delays. -/
def ofList (delays : List Duration) : DelaySet := ⟨delays.map some⟩

/-- Delays in seconds. A number that is no duration is no opinion. -/
def ofSeconds (seconds : List (Option Binary64)) : DelaySet :=
  ⟨seconds.map fun s => s.bind Duration.ofBinary64?⟩

/-- The shortest delay that was asked for. -/
def minimum (delays : DelaySet) : Option Duration := (delays.entries.filterMap id).min?

end DelaySet

end ControlLoop
