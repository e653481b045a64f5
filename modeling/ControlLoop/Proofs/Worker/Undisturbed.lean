import ControlLoop.Proofs.Store.Replay
import ControlLoop.Proofs.Store.Written
import ControlLoop.Proofs.Worker.Script

/-!
# Undisturbed cycles

Where nothing sets the flag, and the store keeps its object and refuses nothing,
every wait is waited to its end and every write succeeds. No window outlives
such a cycle, so none is skipped, and how it ends depends on nothing but the
entry of the script that it is given. What a cycle does not disturb itself, no
later cycle finds disturbed.
-/

set_option autoImplicit false

namespace ControlLoop

/-- No signal is set or to come, and the store has an object, which is what its log makes of the
first one, and refuses nothing. -/
structure Scene.Undisturbed (body : Body) (collapsing : List FieldPath) (world : World Scene) :
    Prop where
  quiet : world.clock.Quiet
  willing : world.env.store.failing = none
  present : world.env.store.object.isSome = true
  replays : world.env.store.Replays body collapsing

namespace Throttle

/-- Without signals the open window is slept out. -/
theorem closed_waited (t : Throttle) {c : Clock} (h : c.Quiet) :
    (t.waited (some .flag) c).1.isThrottling = false ∧ (t.waited (some .flag) c).2.Quiet := by
  unfold waited
  cases hwindow : t.activeUntil with
  | none =>
    refine ⟨?_, h⟩
    rw [isThrottling, hwindow]
    rfl
  | some windowEnd =>
    obtain ⟨later, hsleep, hlater⟩ := h.sleepOrWait (.single (windowEnd - c.now))
    simp only [hsleep]
    exact ⟨rfl, hlater⟩

end Throttle

namespace Scene.Undisturbed

variable {body : Body} {collapsing : List FieldPath} {world : World Scene}

/-- Nothing but the clock and the store matters. -/
theorem congr (h : Undisturbed body collapsing world) {other : World Scene}
    (hclock : other.clock = world.clock) (hstore : other.env.store = world.env.store) :
    Undisturbed body collapsing other := by
  constructor
  · rw [hclock]
    exact h.quiet
  · rw [hstore]
    exact h.willing
  · rw [hstore]
    exact h.present
  · rw [hstore]
    exact h.replays

section Effects

variable (settings : Settings)

/-- The effects of a worker disturb nothing. -/
theorem keeps : (Scene.worker settings).effects.Keeps (some .flag)
    (Undisturbed body collapsing) := by
  constructor
  · intro world notices h
    exact h.congr rfl rfl
  · intro world h
    exact h.congr rfl rfl
  · intro world delay h
    obtain ⟨later, hsleep, hquiet⟩ := h.quiet.sleepOrWait (.single delay)
    rw [hsleep]
    exact ⟨hquiet, h.willing, h.present, h.replays⟩
  · intro patch held world h
    constructor
    · exact h.quiet
    · exact (Store.failing_patch world.env.store patch).trans h.willing
    · have hkept : Store.Operation.write patch ≠ .delete := by simp
      exact Store.isSome_apply h.present hkept
    · exact h.replays.apply (.write patch)

/-- No write is refused. -/
theorem patchAndCheck_ok (h : Undisturbed body collapsing world) (known : List FieldPath)
    (patch : Patch) (held : Body) :
    (Scene.patcher.patchAndCheck known patch held world).1 = .ok () := by
  cases hempty : patch.isEmpty with
  | true => rw [Patcher.patchAndCheck_empty _ _ _ _ hempty]
  | false =>
    rw [(Store.patchAndCheck_apply known held world hempty).1, Store.patch, h.willing]
    cases world.env.store.object <;> rfl

/-- The effects are applied. They are settled if there is nothing to write and nothing to wait
for. -/
theorem apply_ok (h : Undisturbed body collapsing world) (held : Body) (patch : Patch)
    (delays : DelaySet) :
    ((Scene.worker settings).effects.apply held patch delays (some .flag) world).1 =
      .ok (patch.isEmpty && delays.minimum.isNone) := by
  have hkeeps : (Scene.worker settings).effects.Keeps (some .flag)
      (Undisturbed body collapsing) := keeps settings
  cases hempty : patch.isEmpty with
  | false =>
    have hwrite := h.patchAndCheck_ok (Scene.worker settings).effects.known
      ((Scene.worker settings).effects.outgoing held patch) held
    rw [Effects.apply_nonempty _ _ _ _ _ hempty]
    exact congrArg (Except.map fun _ => false) hwrite
  | true =>
    cases hdelay : delays.minimum with
    | none =>
      rw [Effects.apply_idle _ _ _ _ hempty hdelay]
      rfl
    | some delay =>
      rw [Effects.apply_waiting _ _ _ _ hempty hdelay]
      obtain ⟨later, hsleep, -⟩ := h.quiet.sleepOrWait
        (.single (min delay (Scene.worker settings).effects.keepalive))
      have hslept := hkeeps.slept _ (min delay (Scene.worker settings).effects.keepalive)
        (hkeeps.noted world ((Scene.worker settings).effects.sleepingNotes delay) h)
      rw [World.clock_noted, hsleep] at hslept
      have htouch := (hkeeps.stamped _ hslept).patchAndCheck_ok
        (Scene.worker settings).effects.known
        (Marker.touch (Scene.worker settings).effects.markers held .empty (some world.nextStamp))
        held
      rw [hsleep]
      exact congrArg (Except.map fun _ => false) htouch

end Effects

end Scene.Undisturbed

namespace Worker

/-- The outcome of a cycle whose attempt ended so, outside of any window. -/
def attemptOutcome : Except Error CycleOutcome → Except Error CycleOutcome
  | .ok outcome => .ok outcome
  | .error e => if e.isFatal || !e.isThrottleable then .error e else .ok .throttled

/-- How an attempt ends for an answer of the handler, where nothing else decides it. -/
def answerOutcome (answer : Except Error Outcome) : Except Error CycleOutcome :=
  answer.map fun outcome =>
    settledOutcome (outcome.patch.isEmpty && outcome.delays.minimum.isNone)

/-- How a cycle ends for an answer of the handler, where nothing else decides it. -/
def plainOutcome (answer : Except Error Outcome) : Except Error CycleOutcome :=
  attemptOutcome (answerOutcome answer)

theorem plainOutcome_ne_skipped (answer : Except Error Outcome) :
    plainOutcome answer ≠ .ok .skipped := by
  cases answer with
  | ok outcome =>
    intro hskipped
    exact settledOutcome_ne_skipped _ (Except.ok.inj hskipped)
  | error e =>
    simp only [plainOutcome, answerOutcome, Except.map, attemptOutcome]
    split <;> simp

end Worker

namespace Scene.Undisturbed

variable {body : Body} {collapsing : List FieldPath} (settings : Settings)

section Attempt

variable {world : World Scene} (h : Undisturbed body collapsing world)

include h

/-- An attempt fails just if the handler does. -/
theorem attempt_eq (held : Body) : ((Scene.worker settings).attempt held world).1 =
    Worker.answerOutcome world.env.script.next.1 := by
  rw [Worker.attempt_apply, show (Scene.worker settings).handler = Scene.handler from rfl]
  simp only [Scene.handler]
  have hasked : Undisturbed body collapsing
      { world with env := { world.env with script := world.env.script.next.2 } } :=
    h.congr rfl rfl
  cases world.env.script.next.1 with
  | error e => rfl
  | ok outcome =>
    exact congrArg (Except.map Worker.settledOutcome)
      (hasked.apply_ok settings held outcome.patch outcome.delays)

theorem attempt (held : Body) :
    Undisturbed body collapsing ((Scene.worker settings).attempt held world).2 := by
  rw [Worker.attempt_apply, show (Scene.worker settings).handler = Scene.handler from rfl]
  simp only [Scene.handler]
  cases world.env.script.next.1 with
  | error e => exact h.congr rfl rfl
  | ok outcome =>
    exact (keeps settings).apply held outcome.patch outcome.delays (h.congr rfl rfl)

end Attempt

section Cycle

/-- A wait disturbs nothing. -/
theorem waitOut {world : World Scene} (h : Undisturbed body collapsing world) (t : Throttle) :
    (t.waitOut (some .flag) world).1.isThrottling = false ∧
      Undisturbed body collapsing (t.waitOut (some .flag) world).2 := by
  obtain ⟨closed, hquiet⟩ := t.closed_waited h.quiet
  rw [Throttle.waitOut_apply]
  exact ⟨closed, hquiet, h.willing, h.present, h.replays⟩

/-- What follows an attempt outside of any window disturbs nothing, and a window that is opened is
slept out. -/
theorem conclude {done : World Scene} (h : Undisturbed body collapsing done) {t : Throttle}
    (closed : t.isThrottling = false) (delays : List Duration)
    (answer : Except Error CycleOutcome) {result : Except Error (Option CycleOutcome)}
    {after : Throttle} {last : World Scene}
    (hconclude : t.conclude delays (some .flag) Error.isThrottleable (answer, done) =
      ((result, after), last)) :
    (result.map fun outcome => outcome.getD .throttled) = Worker.attemptOutcome answer ∧
      Undisturbed body collapsing last := by
  cases answer with
  | ok value =>
    cases hconclude
    exact ⟨rfl, h⟩
  | error e =>
    rw [Worker.attemptOutcome]
    cases hcaught : e.isFatal || !e.isThrottleable with
    | true =>
      rw [Throttle.conclude_of_refused _ _ (by rw [hcaught, Bool.true_or])] at hconclude
      cases hconclude
      exact ⟨rfl, h⟩
    | false =>
      rw [Throttle.conclude_of_caught _ _ (by rw [hcaught, closed]; rfl)] at hconclude
      cases hconclude
      have hnoted : Undisturbed body collapsing (done.noted [t.absorbingNote delays e]) :=
        h.congr rfl rfl
      exact ⟨rfl, (hnoted.waitOut (t.absorbing delays done.clock)).2⟩

/-- A cycle that nothing disturbs makes its attempt, ends as the next entry of the script says, and
disturbs nothing itself. -/
theorem of_goes {record : CycleRecord Scene} {ready : Throttle} {begun done : World Scene}
    {answer : Except Error CycleOutcome} (h : Undisturbed body collapsing record.started)
    (hgoes : record.Goes (Scene.worker settings) ready begun done answer) :
    record.outcome = Worker.plainOutcome record.started.env.script.next.1 ∧
      Undisturbed body collapsing record.ended := by
  have hentered : Undisturbed body collapsing (record.started.entering record.body) :=
    ⟨h.quiet.clear, h.willing, h.present, h.replays⟩
  obtain ⟨closed, hbegun⟩ := hentered.waitOut record.before
  rw [hgoes.waits] at closed hbegun
  have hanswers := hgoes.answers
  rw [show ready.isThrottling = false from closed] at hanswers
  have hattempt : (Scene.worker settings).attempt record.body begun = (answer, done) := hanswers
  have hanswer := hbegun.attempt_eq settings record.body
  have hdone := hbegun.attempt settings record.body
  rw [hattempt] at hanswer hdone
  rw [hgoes.begun_eq.1] at hanswer
  obtain ⟨result, last, hconclude, houtcome, hended⟩ := hgoes.concludes
  obtain ⟨hresult, hlast⟩ := hdone.conclude closed _ answer hconclude
  constructor
  · rw [houtcome, hresult, Worker.plainOutcome, ← hanswer]
  · rw [hended]
    exact hlast.congr rfl rfl

/-- A cycle that nothing disturbs is given the next entry of the script and no other. -/
theorem record {world : World Scene} (h : Undisturbed body collapsing world) (held : Body)
    (t : Throttle) :
    let record := (Scene.worker settings).record held t world
    record.outcome = Worker.plainOutcome world.env.script.next.1 ∧
      (Scene.worker settings).answers record = [world.env.script.next.1] ∧
      record.ended.env.script = world.env.script.tail ∧
      Undisturbed body collapsing record.ended := by
  intro record
  obtain ⟨ready, begun, done, answer, hgoes⟩ := (Scene.worker settings).exists_goes held t world
  have hstarted : Undisturbed body collapsing record.started := h
  obtain ⟨houtcome, hended⟩ := hstarted.of_goes settings hgoes
  have hran : record.outcome ≠ .ok .skipped := by
    rw [houtcome]
    exact Worker.plainOutcome_ne_skipped _
  obtain ⟨hasked, htail⟩ := (Worker.followsScript_worker settings).of_ran hgoes hran
  refine ⟨houtcome, ?_, htail, hended⟩
  rw [Script.next_fst]
  exact hasked

end Cycle

end Scene.Undisturbed

end ControlLoop
