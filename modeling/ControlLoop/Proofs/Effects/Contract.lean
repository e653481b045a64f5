import ControlLoop.Proofs.Effects.Clearing
import ControlLoop.Proofs.Touch

/-!
# What applying effects comes to

With something to write there is one write, at once. Without, and with nothing
to wait for, nothing is done. With a delay and nothing to write there is a wait,
no longer than the limit; once it is over there is one touch, unless the wait
was interrupted. The result is the write's error or says whether there was
anything to do.
-/

set_option autoImplicit false

namespace ControlLoop

namespace Effects

variable {σ : Type}

section Contract

/-- The patcher was called just once, with one patch, when the clock was at `clock`. The result is
its error, or that there was something to do, and no time passed but what the patcher took. -/
structure CallsOnce (patcher : Patcher σ) (body : Body) (handed : Patch) (clock : Clock)
    (start : World (Watched PatcherCall σ))
    (ended : Except Error Bool × World (Watched PatcherCall σ)) : Prop where
  seen : ended.2.env.seen = start.env.seen ++ [⟨handed, body, clock.now⟩]
  answered : ∃ (called after : World σ) (answer : Except Error (Option Body)),
    called.clock = clock ∧ called.env = start.env.env ∧
    patcher handed body called = (answer, after) ∧
    ended.1 = answer.map (fun _ => false) ∧ ended.2.clock = after.clock ∧
    ended.2.env.env = after.env
  instant : patcher.Instant → ended.2.clock = clock

/-- A write that is not empty is one call, whatever is noted after it. -/
theorem callsOnce_of_patchAndCheck {patcher : Patcher σ} {known : List FieldPath} {handed : Patch}
    {body : Body} (start : World (Watched PatcherCall σ))
    {world after : World (Watched PatcherCall σ)} {result : Except Error Unit}
    (hwrite : patcher.watched.patchAndCheck known handed body world = (result, after))
    (hsame : world.env = start.env) (h : handed.isEmpty = false)
    {ended : Except Error Bool × World (Watched PatcherCall σ)}
    (hresult : ended.1 = result.map fun _ => false) (hclock : ended.2.clock = after.clock)
    (henv : ended.2.env = after.env) :
    CallsOnce patcher body handed world.clock start ended := by
  rw [Patcher.patchAndCheck_nonempty _ _ _ _ h, Patcher.watched_apply] at hwrite
  obtain ⟨called, hcalled⟩ : ∃ called : World σ,
      (world.noted [.patching handed]).withEnv world.env.env = called := ⟨_, rfl⟩
  have hcalledClock : called.clock = world.clock := by rw [← hcalled]; rfl
  have hcalledEnv : called.env = start.env.env := by rw [← hcalled, ← hsame]; rfl
  obtain ⟨answer, left, hanswer⟩ : ∃ answer left, patcher handed body called = (answer, left) :=
    ⟨_, _, rfl⟩
  rw [World.env_noted, hcalled, hsame, hanswer] at hwrite
  obtain ⟨rfl, rfl⟩ := Prod.mk.inj hwrite
  have hended : ended.2.clock = left.clock := hclock
  refine ⟨by rw [henv]; rfl,
    ⟨called, left, answer, hcalledClock, hcalledEnv, hanswer, ?_, hended, by rw [henv]; rfl⟩, ?_⟩
  · rw [hresult]
    cases answer <;> rfl
  · intro hinstant
    have hleft := hinstant handed body called
    rw [hanswer] at hleft
    exact hended.trans (hleft.trans hcalledClock)

/-- Effects are applied by at most one call of the patcher. A patch that asks for something is
written at once. Without one and without a delay nothing happens. With a delay there is a wait for
it, or for the longest single sleep if that is shorter. An interrupted wait is followed by no call,
and one that was not by a single one, as it ends, which writes the next stamp to the markers. -/
theorem apply_contract (patcher : Patcher σ) (settings : Settings) (body : Body) (patch : Patch)
    (delays : DelaySet) (wakeup : Option Wakeup) (world : World (Watched PatcherCall σ))
    {ended : Except Error Bool × World (Watched PatcherCall σ)}
    (hended : (ofSettings patcher.watched settings).apply body patch delays wakeup world = ended) :
    (patch.isEmpty = false →
      CallsOnce patcher body ((ofSettings patcher settings).outgoing body patch) world.clock world
        ended) ∧
    (patch.isEmpty = true → delays.minimum = none → ended = (.ok true, world)) ∧
    (patch.isEmpty = true → ∀ delay, delays.minimum = some delay →
      ∀ left later, world.clock.sleepOrWait
          (.single (min delay settings.effects.keepalive)) wakeup = (left, later) →
        (left.isSome = true →
          ended.1 = .ok false ∧ ended.2.clock = later ∧ ended.2.env = world.env) ∧
        (left = none →
          Marker.Fresh settings.persistence.markerFields body world.nextStamp →
            ∃ touch : Patch,
              touch.AsksOnly settings.persistence.markerFields (.str world.nextStamp) ∧
              CallsOnce patcher body touch later world ended)) := by
  subst hended
  refine ⟨?_, apply_idle _ body wakeup world, ?_⟩
  · intro hpatch
    rw [apply_nonempty _ _ _ _ _ hpatch]
    exact callsOnce_of_patchAndCheck world rfl rfl (isEmpty_outgoing _ body hpatch) rfl rfl rfl
  · intro hempty delay hsome left later hsleep
    have happly :=
      apply_waiting (ofSettings patcher.watched settings) body wakeup world hempty hsome
    rw [show (ofSettings patcher.watched settings).keepalive = settings.effects.keepalive from rfl,
      hsleep] at happly
    rw [happly]
    constructor
    · intro hleft
      obtain ⟨time, rfl⟩ := Option.isSome_iff_exists.1 hleft
      exact ⟨rfl, rfl, rfl⟩
    · rintro rfl hfresh
      refine ⟨_, Marker.asksOnly_touch settings.persistence hfresh, ?_⟩
      dsimp only
      obtain ⟨result, after, htouch⟩ : ∃ result after,
          (ofSettings patcher.watched settings).touch body ((world.noted (sleepingNotes
            (ofSettings patcher.watched settings) delay)).withClock later) = (result, after) :=
        ⟨_, _, rfl⟩
      rw [htouch]
      exact callsOnce_of_patchAndCheck world htouch rfl
        (Marker.isEmpty_touch_of_fresh settings.persistence hfresh) rfl rfl rfl

/-- Effects with the default settings, whose patcher finds no object. -/
def goneEffects : Effects (Watched PatcherCall Unit) :=
  ofSettings (Patcher.watched fun _ _ => pure none) Settings.default

/-- The same world, with a signal to come after two seconds. -/
def signalledWorld : World (Watched PatcherCall Unit) :=
  unwatchedWorld.withClock (Clock.start.schedule 2000 [.set])

/-- A delay of an hour is cut to the ten minutes of a single sleep, and then there is one touch; a
signal on the way leaves it out. A patch is written before any sleep. -/
theorem hourlyDelay_touches_after_limit :
    Marker.Fresh Settings.default.persistence.markerFields readyBody "0" ∧
    (∃ touch : Patch,
      touch.AsksOnly Settings.default.persistence.markerFields (.str "0") ∧
      (goneEffects.apply readyBody .empty (.single (Duration.ofSeconds 3600)) (some .flag)
        unwatchedWorld).2.env.seen = [⟨touch, readyBody, Duration.ofSeconds 600⟩]) ∧
    (goneEffects.apply readyBody .empty (.single (Duration.ofSeconds 3600)) (some .flag)
      signalledWorld).2.env.seen = [] ∧
    goneEffects.apply readyBody .empty .empty none unwatchedWorld = (.ok true, unwatchedWorld) ∧
    (∃ handed : Patch,
      (goneEffects.apply readyBody statusRemoval (.single (Duration.ofSeconds 3600)) none
        unwatchedWorld).2.env.seen = [⟨handed, readyBody, 0⟩]) := by
  have hfresh : Marker.Fresh Settings.default.persistence.markerFields readyBody "0" := by
    unfold Marker.Fresh
    decide
  have hempty : Patch.empty.isEmpty = true := by decide
  refine ⟨hfresh, ?_, ?_, ?_, ?_⟩
  · obtain ⟨-, -, hwait⟩ := apply_contract (fun _ _ => pure none) Settings.default readyBody .empty
      (.single (Duration.ofSeconds 3600)) (some .flag) unwatchedWorld rfl
    obtain ⟨touch, hasks, hcall⟩ := (hwait hempty _ rfl none
      ⟨600000, .quiet, []⟩ (by decide)).2 rfl hfresh
    exact ⟨touch, hasks, hcall.seen⟩
  · obtain ⟨-, -, hwait⟩ := apply_contract (fun _ _ => pure none) Settings.default readyBody .empty
      (.single (Duration.ofSeconds 3600)) (some .flag) signalledWorld rfl
    obtain ⟨-, -, henv⟩ := (hwait hempty _ rfl (some (Duration.ofSeconds 598))
      ⟨2000, ⟨true, none⟩, []⟩ (by decide)).1 rfl
    exact congrArg Watched.seen henv
  · obtain ⟨-, hidle, -⟩ := apply_contract (fun _ _ => pure none) Settings.default readyBody .empty
      .empty none unwatchedWorld rfl
    exact hidle hempty rfl
  · obtain ⟨hwrite, -, -⟩ := apply_contract (fun _ _ => pure none) Settings.default readyBody
      statusRemoval (.single (Duration.ofSeconds 3600)) none unwatchedWorld rfl
    exact ⟨_, (hwrite (by decide)).seen⟩

end Contract

end Effects

end ControlLoop
