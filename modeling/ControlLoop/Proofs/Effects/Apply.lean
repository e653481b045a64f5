import ControlLoop.Effects
import ControlLoop.Proofs.Clock
import ControlLoop.Proofs.Marker
import ControlLoop.Proofs.Watched

/-!
# Applying effects, by what is asked for

There are three cases: something to write, nothing to write and nothing to wait
for, and nothing to write but a delay. In each of them the effects come to at
most one sleep and one checked write.
-/

set_option autoImplicit false

namespace ControlLoop

namespace Effects

variable {σ : Type}

section Writing

theorem isEmpty_outgoing (effects : Effects σ) (body : Body) {patch : Patch}
    (h : patch.isEmpty = false) : (effects.outgoing body patch).isEmpty = false := by
  rw [outgoing, h]
  exact Marker.isEmpty_touch_none effects.markers body h

/-- With something to write, there is the write and nothing after it but a note. -/
theorem apply_nonempty (effects : Effects σ) (body : Body) {patch : Patch} (delays : DelaySet)
    (wakeup : Option Wakeup) (world : World σ) (h : patch.isEmpty = false) :
    effects.apply body patch delays wakeup world =
      let (result, after) :=
        effects.patcher.patchAndCheck effects.known (effects.outgoing body patch) body world
      (result.map fun _ => false, after.noted
        (match result, delays.minimum with
          | .ok _, some left => [.sleepSkipped left]
          | _, _ => [])) := by
  simp only [apply, Attempt.bind_apply, isEmpty_outgoing effects body h]
  cases effects.patcher.patchAndCheck effects.known (effects.outgoing body patch) body world with
  | mk result after =>
    cases result with
    | error e => simp [Except.map]
    | ok _ =>
      cases delays.minimum with
      | none => simp [Except.map, Attempt.pure_apply]
      | some left => rfl

end Writing

section Waiting

variable (effects : Effects σ) (body : Body) (wakeup : Option Wakeup) (world : World σ)

/-- What is noted before a sleep. -/
def sleepingNotes (delay : Duration) : List Notice :=
  if effects.keepalive < delay then [.sleepingCapped delay effects.keepalive]
  else if delay ≠ 0 then [.sleeping delay]
  else []

/-- The sleep is for the delay or the limit, whichever is shorter. -/
theorem sleep_apply (delay : Duration) :
    effects.sleep delay wakeup world =
      let (left, later) :=
        world.clock.sleepOrWait (.single (min delay effects.keepalive)) wakeup
      (left, (world.noted (effects.sleepingNotes delay)).withClock later) := by
  rw [sleep, sleepingNotes]
  by_cases hcapped : effects.keepalive < delay
  · rw [if_pos hcapped, if_pos hcapped, Nat.min_eq_right (Nat.le_of_lt hcapped)]
    rfl
  · rw [if_neg hcapped, if_neg hcapped, Nat.min_eq_left (Nat.le_of_not_lt hcapped)]
    by_cases hzero : delay = 0
    · subst hzero
      simp [Clock.sleepOrWait_zero, Activity.pure_apply]
    · rw [if_pos hzero, if_pos hzero]
      rfl

/-- A touch writes the next stamp. -/
theorem touch_apply :
    effects.touch body world = effects.patcher.patchAndCheck effects.known
      (Marker.touch effects.markers body .empty (some world.nextStamp)) body
      { world with stampsDrawn := world.stampsDrawn + 1 } := rfl

variable {patch : Patch} {delays : DelaySet} (hempty : patch.isEmpty = true)

include hempty

theorem outgoing_of_isEmpty : effects.outgoing body patch = patch := by
  rw [outgoing, if_pos hempty]

/-- With nothing to write and nothing to wait for, nothing is done. -/
theorem apply_idle (hnone : delays.minimum = none) :
    effects.apply body patch delays wakeup world = (.ok true, world) := by
  simp only [apply, Attempt.bind_apply, outgoing_of_isEmpty effects body hempty,
    Patcher.patchAndCheck_empty _ _ _ _ hempty, hnone, hempty]
  rfl

/-- With nothing to write there is a wait, and a touch unless the wait was interrupted. -/
theorem apply_waiting {delay : Duration} (hsome : delays.minimum = some delay) :
    effects.apply body patch delays wakeup world =
      let (left, later) :=
        world.clock.sleepOrWait (.single (min delay effects.keepalive)) wakeup
      let waited := (world.noted (effects.sleepingNotes delay)).withClock later
      match left with
      | some left => (.ok false, waited.noted [.sleepInterrupted left])
      | none =>
        let (result, after) := effects.touch body waited
        (result.map fun _ => false, after) := by
  simp only [apply, Attempt.bind_apply, outgoing_of_isEmpty effects body hempty,
    Patcher.patchAndCheck_empty _ _ _ _ hempty, hsome, hempty, Bool.not_true, Bool.false_eq_true,
    ↓reduceIte, Attempt.lift_apply, sleep_apply]
  cases world.clock.sleepOrWait (.single (min delay effects.keepalive)) wakeup with
  | mk left later =>
    cases left with
    | some left => rfl
    | none =>
      simp only [Attempt.bind_apply]
      cases effects.touch body ((world.noted (effects.sleepingNotes delay)).withClock later) with
      | mk result after => cases result <;> rfl

end Waiting

section Keeps

/-- What the notes, the stamps, the sleeps and the writes of effects keep. -/
structure Keeps (effects : Effects σ) (wakeup : Option Wakeup) (P : World σ → Prop) : Prop where
  noted : ∀ world notices, P world → P (world.noted notices)
  stamped : ∀ world, P world → P { world with stampsDrawn := world.stampsDrawn + 1 }
  slept : ∀ world delay, P world →
    P (world.withClock (world.clock.sleepOrWait (.single delay) wakeup).2)
  patched : ∀ patch body world, P world → P (effects.patcher patch body world).2

variable {effects : Effects σ} {wakeup : Option Wakeup} {P : World σ → Prop} {world : World σ}

theorem Keeps.patchAndCheck (h : effects.Keeps wakeup P) (patch : Patch) (body : Body)
    (hworld : P world) : P (effects.patcher.patchAndCheck effects.known patch body world).2 := by
  cases hempty : patch.isEmpty with
  | true =>
    rw [Patcher.patchAndCheck_empty _ _ _ _ hempty]
    exact hworld
  | false =>
    rw [Patcher.patchAndCheck_nonempty _ _ _ _ hempty]
    have hasked := h.patched patch body _ (h.noted world [.patching patch] hworld)
    exact h.noted _ _ hasked

/-- To apply effects keeps what each of their parts does. -/
theorem Keeps.apply (h : effects.Keeps wakeup P) (body : Body) (patch : Patch) (delays : DelaySet)
    (hworld : P world) : P (effects.apply body patch delays wakeup world).2 := by
  cases hempty : patch.isEmpty with
  | false =>
    rw [apply_nonempty _ _ _ _ _ hempty]
    exact h.noted _ _ (h.patchAndCheck _ body hworld)
  | true =>
    cases hdelay : delays.minimum with
    | none =>
      rw [apply_idle _ _ _ _ hempty hdelay]
      exact hworld
    | some delay =>
      rw [apply_waiting _ _ _ _ hempty hdelay]
      have hslept := h.slept _ (min delay effects.keepalive)
        (h.noted world (effects.sleepingNotes delay) hworld)
      rw [World.clock_noted] at hslept
      cases hsleep : world.clock.sleepOrWait (.single (min delay effects.keepalive)) wakeup with
      | mk left later =>
        rw [hsleep] at hslept
        cases left with
        | some left => exact h.noted _ _ hslept
        | none => exact h.patchAndCheck _ body (h.stamped _ hslept)

end Keeps

section Beside

variable {ε : Type}

/-- The same effects where there is a record that is kept of something else. -/
def unseen (effects : Effects σ) : Effects (Watched ε σ) :=
  { effects with patcher := effects.patcher.unseen }

theorem outgoing_unseen (effects : Effects σ) (body : Body) (patch : Patch) :
    (effects.unseen : Effects (Watched ε σ)).outgoing body patch = effects.outgoing body patch :=
  rfl

theorem touch_beside (effects : Effects σ) (body : Body) (world : World σ) (seen : List ε) :
    effects.unseen.touch body (world.beside seen) =
      ((effects.touch body world).1, (effects.touch body world).2.beside seen) :=
  Patcher.patchAndCheck_beside effects.patcher effects.known
    (Marker.touch effects.markers body .empty (some world.nextStamp)) body
    { world with stampsDrawn := world.stampsDrawn + 1 } seen

/-- To apply effects does not look at the record. -/
theorem apply_beside (effects : Effects σ) (body : Body) (patch : Patch) (delays : DelaySet)
    (wakeup : Option Wakeup) (world : World σ) (seen : List ε) :
    effects.unseen.apply body patch delays wakeup (world.beside seen) =
      ((effects.apply body patch delays wakeup world).1,
        (effects.apply body patch delays wakeup world).2.beside seen) := by
  cases hempty : patch.isEmpty with
  | false =>
    rw [apply_nonempty _ _ _ _ _ hempty, apply_nonempty _ _ _ _ _ hempty, outgoing_unseen]
    simp only [unseen, Patcher.patchAndCheck_beside]
    rfl
  | true =>
    cases hdelay : delays.minimum with
    | none => rw [apply_idle _ _ _ _ hempty hdelay, apply_idle _ _ _ _ hempty hdelay]
    | some delay =>
      rw [apply_waiting _ _ _ _ hempty hdelay, apply_waiting _ _ _ _ hempty hdelay]
      rw [show (world.beside seen).clock = world.clock from rfl,
        show (effects.unseen : Effects (Watched ε σ)).keepalive = effects.keepalive from rfl]
      cases world.clock.sleepOrWait (.single (min delay effects.keepalive)) wakeup with
      | mk left later =>
        cases left with
        | some left => rfl
        | none =>
          simp only [World.noted_beside, World.withClock_beside, touch_beside]
          rfl

end Beside

end Effects

end ControlLoop
