import ControlLoop.World

/-!
# Running activities

An activity is run by giving it a world. These are the results of the parts that
activities are put together from, and the worlds that they leave.
-/

set_option autoImplicit false

namespace ControlLoop

variable {σ α β : Type}

namespace World

/-- The world with more notes in its log, about the object of the present cycle. -/
def noted (world : World σ) (notices : List Notice) : World σ :=
  { world with log := world.log ++ notices.map fun notice => ⟨notice, world.span⟩ }

/-- The world once time has passed or a signal was acted on. -/
def withClock (world : World σ) (clock : Clock) : World σ := { world with clock := clock }

section WithClock

variable (world : World σ) (c : Clock)

@[simp] theorem clock_withClock : (world.withClock c).clock = c := rfl

@[simp] theorem env_withClock : (world.withClock c).env = world.env := rfl

@[simp] theorem withClock_clock : world.withClock world.clock = world := rfl

end WithClock

/-- The next stamp to be drawn. -/
def nextStamp (world : World σ) : String := world.stamp world.stampsDrawn

section Noted

variable (world : World σ) (notices : List Notice)

@[simp] theorem clock_noted : (world.noted notices).clock = world.clock := rfl

@[simp] theorem env_noted : (world.noted notices).env = world.env := rfl

@[simp] theorem span_noted : (world.noted notices).span = world.span := rfl

@[simp] theorem log_noted : (world.noted notices).log =
    world.log ++ notices.map fun notice => ⟨notice, world.span⟩ := rfl

@[simp] theorem noted_nil : world.noted [] = world := by
  simp [noted]

end Noted

end World

namespace Activity

theorem bind_apply (first : Activity σ α) (next : α → Activity σ β) (world : World σ) :
    (first >>= next) world = next (first world).1 (first world).2 := rfl

theorem pure_apply (a : α) (world : World σ) : (pure a : Activity σ α) world = (a, world) := rfl

end Activity

namespace Attempt

theorem bind_apply (first : Attempt σ α) (next : α → Attempt σ β) (world : World σ) :
    (first >>= next) world =
      match first world with
      | (.ok a, after) => next a after
      | (.error e, after) => (.error e, after) := by
  show ExceptT.bindCont next (first world).1 (first world).2 = _
  cases first world with
  | mk result after => cases result <;> rfl

theorem pure_apply (a : α) (world : World σ) : (pure a : Attempt σ α) world = (.ok a, world) := rfl

theorem lift_apply (activity : Activity σ α) (world : World σ) :
    Attempt.lift activity world = (.ok (activity world).1, (activity world).2) := rfl

theorem get_apply (world : World σ) : (get : Attempt σ (World σ)) world = (.ok world, world) := rfl

theorem note_apply (notice : Notice) (world : World σ) :
    (Attempt.note notice : Attempt σ Unit) world = (.ok (), world.noted [notice]) := rfl

end Attempt

end ControlLoop
