import ControlLoop.Proofs.Worker.Cycle

/-!
# Histories of a worker

A worker runs its cycles back to back: each begins at the instant at which the
one before has ended. In between, signals may be acted on and the environment
may change, which takes no time. A history records for every cycle what was
throttled and when, and the calls of the handler.
-/

set_option autoImplicit false

namespace ControlLoop

variable {σ : Type}

/-- A cycle that was run. -/
structure CycleRecord (σ : Type) where
  body : Body
  before : Throttle
  started : World σ
  /-- Each call of what is throttled in the cycle. -/
  attempts : List Throttle.Asked
  /-- The clock at each call of the handler. -/
  consulted : List Clock
  outcome : Except Error CycleOutcome
  after : Throttle
  ended : World σ

/-- A step of a worker's run. -/
inductive WorkerStep (σ : Type) where
  | cycle (body : Body)
  | act (action : SignalAction)
  | change (change : σ → σ)

namespace Worker

variable (worker : Worker σ)

/-- The record of a cycle. -/
def record (body : Body) (t : Throttle) (world : World σ) : CycleRecord σ where
  body := body
  before := t
  started := world
  attempts :=
    (t.run worker.errorDelays (some .flag) Error.isThrottleable
      (fun shouldRun => (worker.operation body shouldRun).watched (Throttle.Asked.mk shouldRun))
      ((world.entering body).beside [])).2.env.seen
  consulted := (worker.watched.runCycle t body (world.beside [])).2.env.seen
  outcome := (worker.runCycle t body world).1.1
  after := (worker.runCycle t body world).1.2
  ended := (worker.runCycle t body world).2

/-- The records of the cycles of a run. -/
def history : List (WorkerStep σ) → Throttle → World σ → List (CycleRecord σ)
  | [], _, _ => []
  | .cycle body :: rest, t, world =>
    worker.record body t world ::
      history rest (worker.record body t world).after (worker.record body t world).ended
  | .act action :: rest, t, world => history rest t (world.withClock (world.clock.act action))
  | .change change :: rest, t, world => history rest t { world with env := change world.env }

variable {worker} in
/-- What comes after a record in a history is the history from there on. -/
theorem exists_rest_of_history_eq {steps : List (WorkerStep σ)} {t : Throttle} {world : World σ}
    {earlier later : List (CycleRecord σ)} {record : CycleRecord σ}
    (h : worker.history steps t world = earlier ++ record :: later) :
    ∃ body before started rest, record = worker.record body before started ∧
      later = worker.history rest record.after record.ended := by
  induction steps generalizing t world earlier with
  | nil =>
    rw [history, eq_comm, List.append_eq_nil_iff] at h
    cases h.2
  | cons step rest ih =>
    cases step with
    | act action => exact ih h
    | change change => exact ih h
    | cycle body =>
      cases earlier with
      | nil =>
        obtain ⟨hrecord, hlater⟩ := List.cons.inj h
        subst hrecord
        exact ⟨body, t, world, rest, rfl, hlater.symm⟩
      | cons first earlier =>
        obtain ⟨-, hrest⟩ := List.cons.inj h
        exact ih hrest

end Worker

/-- How a cycle goes: after the wait it goes on with the throttle `ready`, what is throttled is
called at `begun` and gives its answer at `done`, and the cycle is concluded from that. -/
structure CycleRecord.Goes (worker : Worker σ) (record : CycleRecord σ) (ready : Throttle)
    (begun done : World σ) (answer : Except Error CycleOutcome) : Prop where
  waits : record.before.waitOut (some .flag) (record.started.entering record.body) = (ready, begun)
  answers : worker.operation record.body (!ready.isThrottling) begun = (answer, done)
  attempts : record.attempts = [⟨!ready.isThrottling, begun.clock, done.clock⟩]
  consulted : record.consulted = if !ready.isThrottling then [begun.clock] else []
  concludes : ∃ result last,
    ready.conclude worker.errorDelays (some .flag) Error.isThrottleable (answer, done) =
      ((result, record.after), last) ∧
    record.outcome = result.map (fun outcome => outcome.getD .throttled) ∧
    record.ended = last.leaving record.started.span

namespace Worker

/-- Every cycle waits, calls what is throttled once, and is concluded. -/
theorem exists_goes (worker : Worker σ) (body : Body) (t : Throttle) (world : World σ) :
    ∃ ready begun done answer,
      (worker.record body t world).Goes worker ready begun done answer := by
  obtain ⟨ready, begun, hwait⟩ : ∃ ready begun,
      t.waitOut (some .flag) (world.entering body) = (ready, begun) := ⟨_, _, rfl⟩
  obtain ⟨answer, done, hanswer⟩ : ∃ answer done,
      worker.operation body (!ready.isThrottling) begun = (answer, done) := ⟨_, _, rfl⟩
  refine ⟨ready, begun, done, answer, hwait, hanswer, ?_, ?_, ?_⟩
  · simp only [record, Throttle.run_watched, hwait, hanswer]
    rfl
  · simp only [record, runCycle_watched, hwait]
    rfl
  · simp only [record, runCycle_apply, hwait, hanswer]
    exact ⟨_, _, rfl, rfl, rfl⟩

end Worker

namespace CycleRecord.Goes

variable {worker : Worker σ} {record : CycleRecord σ} {ready : Throttle} {begun done : World σ}
  {answer : Except Error CycleOutcome}

section Begun

variable (h : record.Goes worker ready begun done answer)

include h

theorem waited : record.before.waited (some .flag) (record.started.entering record.body).clock =
    (ready, begun.clock) := by
  have hwaits := h.waits
  rw [Throttle.waitOut_apply] at hwaits
  obtain ⟨hready, hbegun⟩ := Prod.mk.inj hwaits
  rw [← hready, ← hbegun, World.clock_withClock]

/-- The wait changes neither the environment nor the stamps. -/
theorem begun_eq : begun.env = record.started.env ∧ begun.nextStamp = record.started.nextStamp := by
  have hwaits := h.waits
  rw [Throttle.waitOut_apply] at hwaits
  obtain ⟨-, hbegun⟩ := Prod.mk.inj hwaits
  rw [← hbegun]
  exact ⟨rfl, rfl⟩

/-- The conclusion does not change the environment. -/
theorem env_ended : record.ended.env = done.env := by
  obtain ⟨result, last, hconclude, -, hended⟩ := h.concludes
  have henv := Throttle.env_conclude ready worker.errorDelays (some .flag) Error.isThrottleable
    answer done
  rw [hconclude] at henv
  rw [hended, World.env_leaving]
  exact henv

end Begun

/-- A value is the outcome of the cycle, which ends with it. -/
theorem of_ok {value : CycleOutcome} (h : record.Goes worker ready begun done (.ok value)) :
    record.outcome = .ok value ∧
      record.after = (if !ready.isThrottling then ready.release else ready) ∧
      record.ended.clock = done.clock := by
  obtain ⟨result, last, hconclude, houtcome, hended⟩ := h.concludes
  obtain ⟨hresult, hlast⟩ := Prod.mk.inj hconclude
  obtain ⟨rfl, hafter⟩ := Prod.mk.inj hresult
  refine ⟨houtcome, hafter.symm, ?_⟩
  rw [hended, World.clock_leaving, ← hlast]

/-- A failure is the outcome of the cycle, unless it is taken in. Then it was no failure in an open
window, and the cycle ends with the wait for the window that it opened. -/
theorem of_error {e : Error} (h : record.Goes worker ready begun done (.error e)) :
    record.outcome = .error e ∨
    record.outcome = .ok .throttled ∧ ready.isThrottling = false ∧
      (record.after, record.ended.clock) =
        (ready.absorbing worker.errorDelays done.clock).waited (some .flag) done.clock := by
  obtain ⟨result, last, hconclude, houtcome, hended⟩ := h.concludes
  cases hcaught : e.isFatal || !Error.isThrottleable e || ready.isThrottling with
  | true =>
    rw [Throttle.conclude_of_refused _ _ hcaught] at hconclude
    obtain ⟨hresult, -⟩ := Prod.mk.inj hconclude
    obtain ⟨rfl, -⟩ := Prod.mk.inj hresult
    exact .inl houtcome
  | false =>
    rw [Throttle.conclude_of_caught _ _ hcaught, Throttle.waitOut_apply] at hconclude
    obtain ⟨hresult, hlast⟩ := Prod.mk.inj hconclude
    obtain ⟨rfl, hafter⟩ := Prod.mk.inj hresult
    simp only [Bool.or_eq_false_iff] at hcaught
    refine .inr ⟨houtcome, hcaught.2, ?_⟩
    rw [hended, World.clock_leaving, ← hlast, ← hafter]
    rfl

/-- Values other than the outcome of a failure that was taken in are what the attempt answered. -/
theorem outcome_eq_ok_iff (h : record.Goes worker ready begun done answer) {value : CycleOutcome}
    (hvalue : value ≠ .throttled) : record.outcome = .ok value ↔ answer = .ok value := by
  cases answer with
  | ok answered => rw [h.of_ok.1]
  | error e =>
    rcases h.of_error with houtcome | ⟨houtcome, -⟩
    · rw [houtcome]
    · rw [houtcome]
      simp [hvalue.symm]

/-- In an open window the handler is not asked, and the cycle ends as soon as its wait does. -/
theorem of_throttling (h : record.Goes worker ready begun done answer)
    (opened : ready.isThrottling = true) :
    record.outcome = .ok .skipped ∧ record.consulted = [] ∧ record.after = ready ∧
      record.ended.clock = begun.clock := by
  have hanswers := h.answers
  rw [opened] at hanswers
  obtain ⟨rfl, rfl⟩ := Prod.mk.inj hanswers
  obtain ⟨houtcome, hafter, hclock⟩ := h.of_ok
  rw [opened] at hafter
  refine ⟨houtcome, ?_, hafter, hclock⟩
  rw [h.consulted, opened]
  rfl

/-- A cycle that took a failure in made its attempt outside of any window, and ends with the wait
for the window that it opened. -/
theorem of_throttled (h : record.Goes worker ready begun done answer)
    (hthrottled : record.outcome = .ok .throttled) :
    ready.isThrottling = false ∧ (record.after, record.ended.clock) =
      (ready.absorbing worker.errorDelays done.clock).waited (some .flag) done.clock := by
  cases answer with
  | ok value =>
    -- The value would be the outcome as it is, and no attempt answers with this one.
    have hvalue : value = .throttled := Except.ok.inj (h.of_ok.1.symm.trans hthrottled)
    have hne := worker.operation_ne_throttled record.body (!ready.isThrottling) begun
    rw [h.answers, hvalue] at hne
    exact absurd rfl hne
  | error e =>
    rcases h.of_error with houtcome | ⟨-, hended⟩
    · rw [houtcome] at hthrottled
      cases hthrottled
    · exact hended

end CycleRecord.Goes

end ControlLoop
