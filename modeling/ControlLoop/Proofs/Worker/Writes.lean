import ControlLoop.Proofs.Store.Written
import ControlLoop.Proofs.Worker.History

/-!
# What a cycle writes

Only a cycle that another one is to follow writes, and it writes once. Whatever
else becomes of a cycle, the store is as it was, so that nothing is left half
done. A cycle that promises another one without a write has a reason for it: the
object is gone, or the flag is set.
-/

set_option autoImplicit false

namespace ControlLoop

/-- The handler leaves the store alone, and draws no stamps. -/
structure Handler.Abstains (handler : Handler Scene) : Prop where
  store : ∀ body world, (handler body world).2.env.store = world.env.store
  stamp : ∀ body world, (handler body world).2.nextStamp = world.nextStamp

namespace Worker

variable {handler : Handler Scene} (settings : Settings) (body : Body)

theorem map_settledOutcome_eq_iff {result : Except Error Bool} :
    result.map settledOutcome = .ok .pending ↔ result = .ok false := by
  cases result with
  | error e => simp [Except.map]
  | ok settled => cases settled <;> simp [Except.map, settledOutcome]

section Attempt

variable (habstains : handler.Abstains) (world : World Scene)

include habstains

theorem endsUp_attempt {answer : Except Error CycleOutcome} {done : World Scene}
    (hanswer : (ofSettings handler Scene.patcher settings).attempt body world = (answer, done)) :
    Store.EndsUp (answer = .ok .pending)
      (¬ Marker.Fresh settings.persistence.markerFields body world.nextStamp) world.env.store
      done.clock done.env.store := by
  have hstore := habstains.store body world
  have hstamp := habstains.stamp body world
  rw [attempt_apply, show (ofSettings handler Scene.patcher settings).handler = handler from rfl]
    at hanswer
  cases hasked : handler body world with
  | mk decided asked =>
    rw [hasked] at hanswer hstore hstamp
    cases decided with
    | error e =>
      obtain ⟨rfl, rfl⟩ := Prod.mk.inj hanswer
      rw [show asked.env.store = world.env.store from hstore]
      refine .untouched fun hpending => ?_
      cases hpending
    | ok outcome =>
      obtain ⟨rfl, rfl⟩ := Prod.mk.inj hanswer
      have happly := Effects.endsUp_apply settings body asked outcome.patch outcome.delays rfl
      rw [show asked.env.store = world.env.store from hstore,
        show asked.nextStamp = world.nextStamp from hstamp] at happly
      exact happly.congr map_settledOutcome_eq_iff.symm

/-- What is throttled in a cycle ends with another cycle to follow, or leaves the store as it
was. -/
theorem endsUp_operation {shouldRun : Bool} {answer : Except Error CycleOutcome}
    {done : World Scene}
    (hanswer : (ofSettings handler Scene.patcher settings).operation body shouldRun world =
      (answer, done)) :
    Store.EndsUp (answer = .ok .pending)
      (¬ Marker.Fresh settings.persistence.markerFields body world.nextStamp) world.env.store
      done.clock done.env.store := by
  cases shouldRun with
  | true => exact endsUp_attempt settings body habstains world hanswer
  | false =>
    obtain ⟨rfl, rfl⟩ := Prod.mk.inj hanswer
    refine .untouched fun hpending => ?_
    cases hpending

end Attempt

section Cycle

/-- A cycle stands at the store as what is throttled in it does: neither the wait before that nor
the conclusion writes. -/
theorem endsUp_record (habstains : handler.Abstains) (t : Throttle) (world : World Scene) :
    let record := (ofSettings handler Scene.patcher settings).record body t world
    Store.EndsUp (record.outcome = .ok .pending)
      (¬ Marker.Fresh settings.persistence.markerFields body world.nextStamp) world.env.store
      record.ended.clock record.ended.env.store := by
  intro record
  obtain ⟨ready, begun, done, answer, hgoes⟩ :=
    (ofSettings handler Scene.patcher settings).exists_goes body t world
  have hends := endsUp_operation settings body habstains begun hgoes.answers
  obtain ⟨henv, hstamp⟩ := hgoes.begun_eq
  rw [show begun.env = world.env from henv, show begun.nextStamp = world.nextStamp from hstamp]
    at hends
  have hpending : record.outcome = .ok .pending ↔ answer = .ok .pending :=
    hgoes.outcome_eq_ok_iff (by decide)
  rw [show record.ended.env = done.env from hgoes.env_ended]
  by_cases hanswer : answer = .ok .pending
  · subst hanswer
    rw [show record.ended.clock = done.clock from hgoes.of_ok.2.2]
    exact hends.congr hpending.symm
  · rw [hends.eq_of_not hanswer]
    exact .untouched fun houtcome => hanswer (hpending.1 houtcome)

/-- A cycle writes at most once, and only a pending cycle writes. Any other leaves the store as it
was. A pending cycle leaves it so as well, or writes one patch, which is merged into the body. If it
writes nothing, though the touch would have been a change, then the object is gone or the flag is
set. -/
theorem cycle_writes_once (habstains : handler.Abstains) (t : Throttle) (world : World Scene)
    {outcome : Except Error CycleOutcome} {after : Throttle} {ended : World Scene}
    (hcycle : (ofSettings handler Scene.patcher settings).runCycle t body world =
      ((outcome, after), ended)) :
    (outcome ≠ .ok .pending → ended.env.store = world.env.store) ∧
    (outcome = .ok .pending → ended.env.store = world.env.store ∨
      ∃ patch, world.env.store.Written patch ended.env.store) ∧
    (outcome = .ok .pending → ended.env.store.writes = world.env.store.writes →
      Marker.Fresh settings.persistence.markerFields body world.nextStamp →
        ended.env.store.object = none ∨ ended.clock.signals.isSet .flag = true) := by
  have hends := endsUp_record settings body habstains t world
  simp only [record, hcycle] at hends
  refine ⟨hends.eq_of_not, fun _ => hends.eq_or_written, ?_⟩
  intro hpending hsame hfresh
  exact hends.gone_or_signalled hpending hsame (not_not_intro hfresh)

/-- A body with a label that asks for one replica. -/
def oneReplica : Body :=
  .objectOfList [("metadata", .objectOfList [("labels", .objectOfList [("app", .str "web")])]),
    ("spec", .objectOfList [("replicas", .num (.integer 1))])]

/-- A patch that removes the label and asks for two replicas. -/
def twoReplicas : Patch :=
  ⟨.ofList [("metadata", .objectOfList [("labels", .objectOfList [("app", .null)])]),
    ("spec", .objectOfList [("replicas", .num (.integer 2))])]⟩

/-- A body without labels that asks for two replicas. -/
def unlabelled : Body :=
  .objectOfList [("metadata", .objectOfList []),
    ("spec", .objectOfList [("replicas", .num (.integer 2))])]

/-- A world in which the handler asks for two replicas at first, then for a pause of an hour, and
then for nothing. The labels collapse, and there is a signal after two seconds. -/
def rescaled : World Scene where
  clock := Clock.start.schedule 2000 [.set]
  stamp := fun n => toString n
  env := ⟨.ofBody oneReplica [⟨["metadata", "labels"]⟩], [.ok ⟨twoReplicas, .empty⟩,
    .ok ⟨.empty, .single (Duration.ofSeconds 3600)⟩]⟩

theorem abstains_handler : Scene.handler.Abstains where
  store := fun _ _ => rfl
  stamp := fun _ _ => rfl

/-- The first cycle writes the patch, and the labels are gone with the last of them. The second one
writes nothing, as the signal interrupts its pause, and leaves the flag set. The third one has
nothing to do. -/
theorem rescaled_written_once : Scene.handler.Abstains ∧
    ∃ (written waited rested : World Scene) (first second third : Throttle),
      (Scene.worker .default).runCycle .idle oneReplica rescaled =
        ((.ok .pending, first), written) ∧
      (Scene.worker .default).runCycle first unlabelled written =
        ((.ok .pending, second), waited) ∧
      (Scene.worker .default).runCycle second unlabelled waited =
        ((.ok .applied, third), rested) ∧
      rescaled.env.store.Written twoReplicas written.env.store ∧
      written.env.store.object = some unlabelled ∧ written.env.store.writes = [twoReplicas] ∧
      waited.env.store = written.env.store ∧
      Marker.Fresh Settings.default.persistence.markerFields unlabelled written.nextStamp ∧
      waited.clock.signals.isSet .flag = true ∧
      rested.env.store = waited.env.store := by
  obtain ⟨written, waited, rested, first, second, third, hfirst, hsecond, hthird, hbody, hlog,
      hsame, hfresh⟩ :
      ∃ (written waited rested : World Scene) (first second third : Throttle),
        (Scene.worker .default).runCycle .idle oneReplica rescaled =
          ((.ok .pending, first), written) ∧
        (Scene.worker .default).runCycle first unlabelled written =
          ((.ok .pending, second), waited) ∧
        (Scene.worker .default).runCycle second unlabelled waited =
          ((.ok .applied, third), rested) ∧
        written.env.store.object = some unlabelled ∧
        written.env.store.writes = [twoReplicas] ∧
        waited.env.store.writes = written.env.store.writes ∧
        Marker.Fresh Settings.default.persistence.markerFields unlabelled written.nextStamp := by
    refine ⟨_, _, _, _, _, _, rfl, rfl, rfl, rfl, rfl, rfl, ?_⟩
    unfold Marker.Fresh
    decide
  obtain ⟨-, hwrites, -⟩ :=
    cycle_writes_once .default oneReplica abstains_handler .idle rescaled hfirst
  obtain ⟨-, hpauses, hreason⟩ :=
    cycle_writes_once .default unlabelled abstains_handler first written hsecond
  obtain ⟨huntouched, -, -⟩ :=
    cycle_writes_once .default unlabelled abstains_handler second waited hthird
  have hwritten : rescaled.env.store.Written twoReplicas written.env.store := by
    rcases hwrites rfl with hstore | ⟨patch, hpatch⟩
    · rw [hstore] at hlog
      cases hlog
    · have hlogged : [patch] = [twoReplicas] := hpatch.writes.symm.trans hlog
      rwa [List.singleton_inj.1 hlogged] at hpatch
  have hpaused : waited.env.store = written.env.store := by
    rcases hpauses rfl with hstore | ⟨patch, hpatch⟩
    · exact hstore
    · rw [hpatch.writes] at hsame
      exact absurd hsame (by simp)
  refine ⟨abstains_handler, written, waited, rested, first, second, third, hfirst, hsecond, hthird,
    hwritten, hbody, hlog, hpaused, hfresh, ?_, huntouched nofun⟩
  rcases hreason rfl hsame hfresh with hgone | hset
  · rw [hpaused, hbody] at hgone
    cases hgone
  · exact hset

end Cycle

end Worker

end ControlLoop
