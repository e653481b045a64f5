import ControlLoop.Proofs.Worker.History
import ControlLoop.Simulation

/-!
# Workers that follow a script

A worker whose handler follows a script asks for one entry in each cycle that is
not skipped, and for none in a skipped one. So the entries are used up in their
order, none is lost and none comes twice, whatever the signals do, however much
time passes and whatever becomes of the store. A skipped cycle leaves no trace.
-/

set_option autoImplicit false

namespace ControlLoop

variable {σ : Type}

namespace Script

/-- The result of the next call is the first entry, and nothing is wanted past the end. -/
theorem next_fst (script : Script) : script.next.1 = script[0]?.getD (.ok .nothing) := by
  cases script <;> rfl

/-- After a call the rest of the script is left. -/
theorem next_snd (script : Script) : script.next.2 = script.tail := by
  cases script <;> rfl

end Script

/-- Whether the cycle was not skipped. -/
def CycleRecord.ran (record : CycleRecord σ) : Bool :=
  match record.outcome with
  | .ok .skipped => false
  | _ => true

theorem CycleRecord.ran_eq_false_iff (record : CycleRecord σ) :
    record.ran = false ↔ record.outcome = .ok .skipped := by
  unfold CycleRecord.ran
  split <;> simp_all

namespace Worker

/-- What the handler answered in a cycle, each time that it was called. -/
def answers (worker : Worker σ) (record : CycleRecord σ) : List (Except Error Outcome) :=
  ((worker.recorded fun _ asked => asked.1).runCycle record.before record.body
    (record.started.beside [])).2.env.seen

end Worker

namespace CycleRecord.Goes

variable {worker : Worker σ} {record : CycleRecord σ} {ready : Throttle} {begun done : World σ}
  {answer : Except Error CycleOutcome}

/-- The handler answers once, right after the wait, unless the window is still open. -/
theorem answers_eq (h : record.Goes worker ready begun done answer) : worker.answers record =
    if !ready.isThrottling then [(worker.handler record.body begun).1] else [] := by
  unfold Worker.answers
  simp only [Worker.runCycle_recorded, h.waits]
  rfl

/-- A cycle is skipped just if its wait leaves the window open. -/
theorem skipped_iff (h : record.Goes worker ready begun done answer) :
    record.outcome = .ok .skipped ↔ ready.isThrottling = true := by
  constructor
  · intro hskipped
    have hanswer : answer = .ok .skipped := (h.outcome_eq_ok_iff (by decide)).1 hskipped
    cases hready : ready.isThrottling with
    | true => rfl
    | false =>
      have hanswers := h.answers
      rw [hready] at hanswers
      have hattempt : worker.attempt record.body begun = (answer, done) := hanswers
      have hne := worker.attempt_ne_skipped record.body begun
      rw [hattempt] at hne
      exact absurd hanswer hne
  · intro opened
    exact (h.of_throttling opened).1

/-- A skipped cycle leaves the environment and the throttle as they were. -/
theorem of_skipped (h : record.Goes worker ready begun done answer)
    (hskipped : record.outcome = .ok .skipped) :
    worker.answers record = [] ∧ record.ended.env = record.started.env ∧
      record.after = record.before := by
  have opened := h.skipped_iff.1 hskipped
  obtain ⟨-, -, hafter, -⟩ := h.of_throttling opened
  have hanswers := h.answers
  rw [opened] at hanswers
  obtain ⟨-, hdone⟩ := Prod.mk.inj hanswers
  have hready : ready = record.before := by
    have hwaits := record.before.waits (some .flag) (record.started.entering record.body).clock
    rw [h.waited] at hwaits
    exact hwaits.eq_of_throttling opened
  refine ⟨?_, ?_, hafter.trans hready⟩
  · rw [h.answers_eq, opened]
    rfl
  · rw [h.env_ended, ← hdone, h.begun_eq.1]

end CycleRecord.Goes

namespace Worker

/-- The handler follows the script, and the writes leave the script alone. -/
structure FollowsScript (worker : Worker Scene) : Prop where
  handler : worker.handler = Scene.handler
  patcher : ∀ patch body world,
    (worker.effects.patcher patch body world).2.env.script = world.env.script

theorem followsScript_worker (settings : Settings) : (Scene.worker settings).FollowsScript := by
  constructor
  · rfl
  · intro patch body world
    rfl

variable {worker : Worker Scene}

/-- Effects leave the script alone if the writes do. -/
theorem FollowsScript.keeps (h : worker.FollowsScript) (script : Script) :
    worker.effects.Keeps (some .flag) fun world => world.env.script = script := by
  constructor
  · intro world notices hscript
    exact hscript
  · intro world hscript
    exact hscript
  · intro world delay hscript
    exact hscript
  · intro patch body world hscript
    rw [h.patcher]
    exact hscript

/-- An attempt asks for one entry of the script. -/
theorem FollowsScript.attempt (h : worker.FollowsScript) (body : Body) (world : World Scene) :
    (worker.attempt body world).2.env.script = world.env.script.tail := by
  rw [attempt_apply, h.handler]
  simp only [Scene.handler]
  rw [← Script.next_snd]
  cases world.env.script.next.1 with
  | error e => rfl
  | ok outcome => exact (h.keeps _).apply body outcome.patch outcome.delays rfl

/-- A cycle that is not skipped is given the next entry, and leaves the others. -/
theorem FollowsScript.of_ran (h : worker.FollowsScript) {record : CycleRecord Scene}
    {ready : Throttle} {begun done : World Scene} {answer : Except Error CycleOutcome}
    (hgoes : record.Goes worker ready begun done answer)
    (hran : record.outcome ≠ .ok .skipped) :
    worker.answers record = [record.started.env.script[0]?.getD (.ok .nothing)] ∧
      record.ended.env.script = record.started.env.script.tail := by
  have closed : ready.isThrottling = false := by
    rw [← Bool.not_eq_true]
    exact fun opened => hran (hgoes.skipped_iff.2 opened)
  obtain ⟨hbegun, -⟩ := hgoes.begun_eq
  have hanswers := hgoes.answers
  rw [closed] at hanswers
  have hattempt : worker.attempt record.body begun = (answer, done) := hanswers
  constructor
  · have hasked : (worker.handler record.body begun).1 = begun.env.script.next.1 := by
      rw [h.handler]
      rfl
    rw [hgoes.answers_eq, closed, Bool.not_false, if_pos rfl, hasked, Script.next_fst, hbegun]
  · have hscript := h.attempt record.body begun
    rw [hattempt] at hscript
    rw [hgoes.env_ended, ← hbegun]
    exact hscript

end Worker

/-- A step of the run of a worker that follows a script: a cycle, or what happens between the cycles
to the clock or to the store. -/
inductive Scene.Move where
  | cycle (body : Body)
  | clock (move : Throttle.ClockMove)
  | store (change : Store → Store)

namespace Worker

variable (worker : Worker Scene)

/-- The records of the cycles of a run. -/
def course : List Scene.Move → Throttle → World Scene → List (CycleRecord Scene)
  | [], _, _ => []
  | .cycle body :: rest, t, world =>
    worker.record body t world ::
      course rest (worker.record body t world).after (worker.record body t world).ended
  | .clock move :: rest, t, world => course rest t (world.withClock (move.apply world.clock))
  | .store change :: rest, t, world =>
    course rest t { world with env := { world.env with store := change world.env.store } }

variable {worker}

/-- Every record of a run is the record of a cycle. -/
theorem exists_record_of_mem_course {moves : List Scene.Move} {t : Throttle} {world : World Scene}
    {record : CycleRecord Scene} (h : record ∈ worker.course moves t world) :
    ∃ body before started, record = worker.record body before started := by
  induction moves generalizing t world with
  | nil => cases h
  | cons move rest ih =>
    cases move with
    | clock move => exact ih h
    | store change => exact ih h
    | cycle body =>
      rcases List.mem_cons.1 h with rfl | h
      · exact ⟨body, t, world, rfl⟩
      · exact ih h

/-- The cycles that are not skipped are given the entries in their order. -/
theorem FollowsScript.course (h : worker.FollowsScript) (moves : List Scene.Move) (t : Throttle)
    (world : World Scene) : ∀ (i : Nat) record,
      ((worker.course moves t world).filter CycleRecord.ran)[i]? = some record →
        worker.answers record = [world.env.script[i]?.getD (.ok .nothing)] := by
  induction moves generalizing t world with
  | nil =>
    intro i record hrecord
    cases hrecord
  | cons move rest ih =>
    cases move with
    | clock move => exact ih t _
    | store change => exact ih t _
    | cycle body =>
      intro i record hrecord
      obtain ⟨ready, begun, done, answer, hgoes⟩ := worker.exists_goes body t world
      rw [Worker.course] at hrecord
      cases hran : (worker.record body t world).ran with
      | false =>
        have hskipped := (CycleRecord.ran_eq_false_iff _).1 hran
        obtain ⟨-, henv, -⟩ := hgoes.of_skipped hskipped
        have hscript : (worker.record body t world).ended.env = world.env := henv
        rw [List.filter_cons_of_neg (by simp [hran])] at hrecord
        rw [← hscript]
        exact ih _ _ i record hrecord
      | true =>
        have hunskipped : (worker.record body t world).outcome ≠ .ok .skipped := by
          intro hskipped
          rw [(CycleRecord.ran_eq_false_iff _).2 hskipped] at hran
          cases hran
        obtain ⟨hanswers, hscript⟩ := h.of_ran hgoes hunskipped
        rw [List.filter_cons_of_pos hran] at hrecord
        cases i with
        | zero =>
          obtain rfl := Option.some.inj hrecord
          exact hanswers
        | succ i =>
          rw [ih _ _ i record hrecord, hscript, List.getElem?_tail]
          rfl

/-- Along every run no entry of the script is lost, repeated or moved, whatever happens to the
signals and to the store and however much time passes. The handler is asked once in each cycle that
is not skipped, and these cycles are given the entries in their order, and nothing to do past the
end. A skipped cycle does not ask the handler, and leaves the script, the store and the throttle as
they were. -/
theorem course_follows_script (hfollows : worker.FollowsScript) (moves : List Scene.Move)
    (t : Throttle) (world : World Scene) :
    (∀ record ∈ worker.course moves t world,
      (record.outcome = .ok .skipped → worker.answers record = [] ∧
        record.ended.env = record.started.env ∧ record.after = record.before) ∧
      (record.outcome ≠ .ok .skipped → ∃ answer, worker.answers record = [answer])) ∧
    ∀ (i : Nat) record, ((worker.course moves t world).filter CycleRecord.ran)[i]? = some record →
      worker.answers record = [world.env.script[i]?.getD (.ok .nothing)] := by
  constructor
  · intro record hrecord
    obtain ⟨body, before, started, rfl⟩ := exists_record_of_mem_course hrecord
    obtain ⟨ready, begun, done, answer, hgoes⟩ := worker.exists_goes body before started
    constructor
    · intro hskipped
      exact hgoes.of_skipped hskipped
    · intro hran
      exact ⟨_, (hfollows.of_ran hgoes hran).1⟩
  · exact hfollows.course moves t world

/-- A worker that follows a script, with a backoff of a second. -/
def impatient : Worker Scene := { Scene.worker .default with errorDelays := [Duration.second] }

/-- A patch that asks for a pause. -/
def pausing : Patch := ⟨.ofList [("paused", .bool true)]⟩

/-- A world in which the handler fails once and then asks for a pause, with signals after 500 and
700 milliseconds. -/
def interruptedTwice : World Scene where
  clock := (Clock.start.schedule 500 [.set]).schedule 700 [.set]
  stamp := fun n => toString n
  env := ⟨.ofBody .null [], [.error (.permanent "no answer"), .ok ⟨pausing, .empty⟩]⟩

/-- Two cycles, the deletion of the object, and two more cycles with an hour between them. -/
def aroundDeletion : List Scene.Move :=
  [.cycle .null, .cycle .null, .store Store.delete, .cycle .null, .clock (.pass 3600000),
    .cycle .null]

/-- The signals cut the backoff short, and the second cycle is skipped without a trace. The other
three are given the two entries and nothing. -/
theorem aroundDeletion_follows_script : impatient.FollowsScript ∧
    ∃ failing skipped resumed last : CycleRecord Scene,
      impatient.course aroundDeletion .idle interruptedTwice = [failing, skipped, resumed, last] ∧
      skipped.outcome = .ok .skipped ∧ impatient.answers skipped = [] ∧
      skipped.ended.env = skipped.started.env ∧ skipped.after = skipped.before ∧
      impatient.answers failing = [.error (.permanent "no answer")] ∧
      impatient.answers resumed = [.ok ⟨pausing, .empty⟩] ∧
      impatient.answers last = [.ok .nothing] := by
  have hfollows : impatient.FollowsScript := by
    constructor
    · rfl
    · intro patch body world
      rfl
  obtain ⟨hcycles, hentries⟩ := course_follows_script hfollows aroundDeletion .idle interruptedTwice
  obtain ⟨failing, skipped, resumed, last, hrun, houtcome, hran⟩ :
      ∃ failing skipped resumed last : CycleRecord Scene,
        impatient.course aroundDeletion .idle interruptedTwice =
          [failing, skipped, resumed, last] ∧
        skipped.outcome = .ok .skipped ∧
        [failing, skipped, resumed, last].filter CycleRecord.ran = [failing, resumed, last] :=
    ⟨_, _, _, _, rfl, rfl, rfl⟩
  rw [hrun] at hcycles hentries
  rw [hran] at hentries
  obtain ⟨hunasked, henv, hsame⟩ := (hcycles skipped (by simp)).1 houtcome
  exact ⟨hfollows, failing, skipped, resumed, last, hrun, houtcome, hunasked, henv, hsame,
    hentries 0 failing rfl, hentries 1 resumed rfl, hentries 2 last rfl⟩

end Worker

end ControlLoop
