import ControlLoop.Proofs.Effects.Apply
import ControlLoop.Proofs.Throttle.History
import ControlLoop.Worker

/-!
# One cycle of a worker

A cycle clears the flag, waits for the open window, makes its attempt unless the
window is still open, and concludes with what came of it. The handler is asked
at the start of the attempt and at no other time. What a cycle does to the
throttle and to the world is read off its conclusion.
-/

set_option autoImplicit false

namespace ControlLoop

variable {ε σ : Type}

/-- The world as a cycle finds it once the flag is cleared, with its notes about the body. -/
def World.entering (world : World σ) (body : Body) : World σ :=
  { world with clock := world.clock.act .clear, span := some (.ofBody body) }

/-- The world as a cycle leaves it, with notes about whatever they were about before. -/
def World.leaving (world : World σ) (span : Option Span) : World σ := { world with span := span }

section Entering

variable (world : World σ) (body : Body) (span : Option Span) (seen : List ε)

@[simp] theorem World.isSet_entering :
    (world.entering body).clock.signals.isSet .flag = false := rfl

@[simp] theorem World.millis_entering :
    (world.entering body).clock.millis = world.clock.millis := rfl

@[simp] theorem World.env_leaving : (world.leaving span).env = world.env := rfl

@[simp] theorem World.clock_leaving : (world.leaving span).clock = world.clock := rfl

theorem World.entering_beside :
    (world.beside seen).entering body = (world.entering body).beside seen := rfl

end Entering

namespace Worker

variable (worker : Worker σ) (t : Throttle) (body : Body)

section Attempt

/-- What is throttled in a cycle: the attempt, unless it is told not to run. -/
def operation (shouldRun : Bool) : Attempt σ CycleOutcome :=
  if shouldRun then worker.attempt body else return .skipped

theorem operation_false (world : World σ) :
    worker.operation body false world = (.ok .skipped, world) := rfl

/-- The outcome of effects that were applied. -/
def settledOutcome (settled : Bool) : CycleOutcome := if settled then .applied else .pending

/-- An attempt ends with the handler's error, or as its effects do. -/
theorem attempt_apply (world : World σ) :
    worker.attempt body world =
      match worker.handler body world with
      | (.error e, asked) => (.error e, asked)
      | (.ok outcome, asked) =>
        let (result, after) :=
          worker.effects.apply body outcome.patch outcome.delays (some .flag) asked
        (result.map settledOutcome, after) := by
  simp only [attempt, Attempt.bind_apply]
  cases worker.handler body world with
  | mk answer asked =>
    cases answer with
    | error e => rfl
    | ok outcome =>
      dsimp only
      cases worker.effects.apply body outcome.patch outcome.delays (some .flag) asked with
      | mk result after => cases result <;> rfl

/-- The value of an attempt is the outcome of effects that were applied. -/
theorem exists_settled_of_attempt {world : World σ} {outcome : CycleOutcome}
    (h : (worker.attempt body world).1 = .ok outcome) :
    ∃ settled, outcome = settledOutcome settled := by
  rw [attempt_apply] at h
  split at h
  · cases h
  · next decided asked hasked =>
    generalize worker.effects.apply body decided.patch decided.delays (some .flag) asked = ended
      at h
    obtain ⟨result, after⟩ := ended
    cases result with
    | error e => cases h
    | ok settled => exact ⟨settled, (Except.ok.inj h).symm⟩

theorem settledOutcome_ne_throttled (settled : Bool) : settledOutcome settled ≠ .throttled := by
  cases settled <;> simp [settledOutcome]

theorem settledOutcome_ne_skipped (settled : Bool) : settledOutcome settled ≠ .skipped := by
  cases settled <;> simp [settledOutcome]

/-- No attempt ends with the outcome of a failure that was taken in. -/
theorem operation_ne_throttled (shouldRun : Bool) (world : World σ) :
    (worker.operation body shouldRun world).1 ≠ .ok .throttled := by
  cases shouldRun with
  | false => simp [operation_false]
  | true =>
    intro hthrottled
    obtain ⟨settled, hsettled⟩ := worker.exists_settled_of_attempt body hthrottled
    exact settledOutcome_ne_throttled settled hsettled.symm

/-- No attempt ends with the outcome of a skipped cycle. -/
theorem attempt_ne_skipped (world : World σ) : (worker.attempt body world).1 ≠ .ok .skipped := by
  intro hskipped
  obtain ⟨settled, hsettled⟩ := worker.exists_settled_of_attempt body hskipped
  exact settledOutcome_ne_skipped settled hsettled.symm

end Attempt

section Cycle

/-- A cycle waits, makes its attempt once, and concludes. -/
theorem runCycle_apply (world : World σ) :
    worker.runCycle t body world =
      let (ready, begun) := t.waitOut (some .flag) (world.entering body)
      let ((result, after), ended) := ready.conclude worker.errorDelays (some .flag)
        Error.isThrottleable (worker.operation body (!ready.isThrottling) begun)
      ((result.map fun outcome => outcome.getD .throttled, after), ended.leaving world.span) := by
  have hrun := t.run_apply worker.errorDelays (some .flag) Error.isThrottleable
    (worker.operation body) (world.entering body)
  have hcycle : worker.runCycle t body world =
      let ((result, after), ended) := t.run worker.errorDelays (some .flag) Error.isThrottleable
        (worker.operation body) (world.entering body)
      ((result.map fun outcome => outcome.getD .throttled, after), ended.leaving world.span) := rfl
  rw [hcycle, hrun]
  rfl

/-- The worker whose handler's calls are put on record. -/
def recorded (entry : World σ → Except Error Outcome × World σ → ε) : Worker (Watched ε σ) where
  handler := fun body => (worker.handler body).recorded entry
  effects := worker.effects.unseen
  errorDelays := worker.errorDelays

section Recorded

variable (entry : World σ → Except Error Outcome × World σ → ε)

theorem errorDelays_recorded : (worker.recorded entry).errorDelays = worker.errorDelays := rfl

/-- The handler is asked at the start of an attempt. -/
theorem operation_recorded (shouldRun : Bool) (world : World σ) (seen : List ε) :
    (worker.recorded entry).operation body shouldRun (world.beside seen) =
      ((worker.operation body shouldRun world).1, (worker.operation body shouldRun world).2.beside
        (if shouldRun then seen ++ [entry world (worker.handler body world)] else seen)) := by
  cases shouldRun with
  | false => rfl
  | true =>
    show (worker.recorded entry).attempt body (world.beside seen) =
      ((worker.attempt body world).1, (worker.attempt body world).2.beside
        (seen ++ [entry world (worker.handler body world)]))
    rw [attempt_apply, attempt_apply]
    simp only [recorded, Attempt.recorded_beside]
    cases worker.handler body world with
    | mk answer asked =>
      cases answer with
      | error e => rfl
      | ok outcome =>
        simp only [Effects.apply_beside]
        rfl

/-- To put the handler on record changes nothing of a cycle. It shows the handler asked once, right
after the wait, unless the window is still open. -/
theorem runCycle_recorded (world : World σ) (seen : List ε) :
    (worker.recorded entry).runCycle t body (world.beside seen) =
      let (ready, begun) := t.waitOut (some .flag) (world.entering body)
      ((worker.runCycle t body world).1, (worker.runCycle t body world).2.beside
        (if !ready.isThrottling then seen ++ [entry begun (worker.handler body begun)]
          else seen)) := by
  rw [runCycle_apply, runCycle_apply]
  simp only [World.entering_beside, Throttle.waitOut_beside, operation_recorded,
    Throttle.conclude_beside, errorDelays_recorded]
  rfl

end Recorded

/-- The worker whose handler's calls are put on record, by the clock at their start. -/
def watched : Worker (Watched Clock σ) := worker.recorded fun start _ => start.clock

/-- To watch the handler changes nothing of a cycle. It shows the handler asked once, right after
the wait, unless the window is still open. -/
theorem runCycle_watched (world : World σ) (seen : List Clock) :
    worker.watched.runCycle t body (world.beside seen) =
      let (ready, begun) := t.waitOut (some .flag) (world.entering body)
      ((worker.runCycle t body world).1, (worker.runCycle t body world).2.beside
        (if !ready.isThrottling then seen ++ [begun.clock] else seen)) :=
  runCycle_recorded worker t body (fun start _ => start.clock) world seen

end Cycle

end Worker

end ControlLoop
