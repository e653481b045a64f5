import ControlLoop.Marker
import ControlLoop.Patching
import ControlLoop.Settings.Basic

/-!
# Effects

The effects of a cycle are a patch and the delays that were asked for. A patch
is written at once, and with it goes any marker left over from before; the write
itself brings about the next cycle. Without a patch the cycle sleeps, though not
beyond a limit, and a sleep that was not interrupted ends with a touch, which
brings about the next cycle too.
-/

set_option autoImplicit false

namespace ControlLoop

/-- What it takes to apply the effects of cycles. -/
structure Effects (σ : Type) where
  patcher : Patcher σ
  /-- Fields that the store is known to drop when they hold nothing. -/
  known : List FieldPath
  /-- The fields of the marker. -/
  markers : List FieldPath
  /-- The longest single sleep. -/
  keepalive : Duration

namespace Effects

variable {σ : Type}

/-- Effects with the given settings. -/
def ofSettings (patcher : Patcher σ) (settings : Settings) : Effects σ where
  patcher := patcher
  known := settings.effects.knownInconsistencies
  markers := settings.persistence.markerFields
  keepalive := settings.effects.keepalive

/-- The patch that is written for a patch: a marker that the body holds is removed along with a real
change, and never alone. -/
def outgoing (effects : Effects σ) (body : Body) (patch : Patch) : Patch :=
  if patch.isEmpty then patch else Marker.touch effects.markers body patch none

/-- Sleeps for a delay, though not beyond the limit. The answer is the time left if the sleep was
interrupted. -/
def sleep (effects : Effects σ) (delay : Duration) (wakeup : Option Wakeup) :
    Activity σ (Option Duration) := do
  if effects.keepalive < delay then
    Activity.note (.sleepingCapped delay effects.keepalive)
    Activity.sleepOrWait (.single effects.keepalive) wakeup
  else if delay ≠ 0 then
    Activity.note (.sleeping delay)
    Activity.sleepOrWait (.single delay) wakeup
  else return none

/-- Writes a fresh stamp to the markers. -/
def touch (effects : Effects σ) (body : Body) : Attempt σ Unit := do
  let stamp ← Attempt.lift Activity.drawStamp
  effects.patcher.patchAndCheck effects.known
    (Marker.touch effects.markers body .empty (some stamp)) body

/-- Applies the effects of a cycle. The answer is whether there was nothing to write and nothing to
wait for. -/
def apply (effects : Effects σ) (body : Body) (patch : Patch) (delays : DelaySet)
    (wakeup : Option Wakeup) : Attempt σ Bool := do
  let patch := effects.outgoing body patch
  effects.patcher.patchAndCheck effects.known patch body
  match delays.minimum with
  | none => return patch.isEmpty
  | some delay =>
    if !patch.isEmpty then
      Attempt.note (.sleepSkipped delay)
    else
      match ← Attempt.lift (effects.sleep delay wakeup) with
      | some left => Attempt.note (.sleepInterrupted left)
      | none => effects.touch body
    return false

end Effects

end ControlLoop
