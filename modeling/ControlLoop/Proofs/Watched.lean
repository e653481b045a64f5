import ControlLoop.Proofs.Patching

/-!
# Watching attempts

What an attempt is given, and when, is seen by an attempt that keeps a record.
The record is kept beside the environment, where nothing else can reach it, so
that to watch an attempt changes nothing of what it does.
-/

set_option autoImplicit false

namespace ControlLoop

variable {ε σ τ α : Type}

/-- An environment with a record kept beside it. -/
structure Watched (ε σ : Type) where
  env : σ
  /-- The entries made so far, the first one first. -/
  seen : List ε

/-- The world with another environment. -/
def World.withEnv (world : World σ) (env : τ) : World τ :=
  { world with env := env }

/-- The world with a record kept beside its environment. -/
def World.beside (world : World σ) (seen : List ε) : World (Watched ε σ) :=
  world.withEnv ⟨world.env, seen⟩

theorem World.withEnv_env (world : World σ) (seen : List ε) :
    world.withEnv (⟨world.env, seen⟩ : Watched ε σ) = world.beside seen := rfl

/-- An attempt of which an entry is put on record, made of the world at its start, its answer and
the world at its end. -/
def Attempt.recorded (entry : World σ → Except Error α × World σ → ε) (attempt : Attempt σ α) :
    Attempt (Watched ε σ) α :=
  fun world =>
    let (result, after) := attempt (world.withEnv world.env.env)
    (result, after.withEnv
      ⟨after.env, world.env.seen ++ [entry (world.withEnv world.env.env) (result, after)]⟩)

/-- An attempt whose start and end are put on record. -/
def Attempt.watched (entry : Clock → Clock → ε) (attempt : Attempt σ α) : Attempt (Watched ε σ) α :=
  attempt.recorded fun start ended => entry start.clock ended.2.clock

/-- The same attempt where there is a record, in which it leaves nothing. -/
def Attempt.unseen (attempt : Attempt σ α) : Attempt (Watched ε σ) α :=
  fun world =>
    let (result, after) := attempt (world.withEnv world.env.env)
    (result, after.withEnv ⟨after.env, world.env.seen⟩)

section Beside

variable (attempt : Attempt σ α) (world : World σ) (seen : List ε)

theorem Attempt.recorded_beside (entry : World σ → Except Error α × World σ → ε) :
    attempt.recorded entry (world.beside seen) = ((attempt world).1,
      (attempt world).2.beside (seen ++ [entry world (attempt world)])) := rfl

theorem Attempt.unseen_beside : attempt.unseen (world.beside seen) =
    ((attempt world).1, (attempt world).2.beside seen) := rfl

theorem World.noted_beside (notices : List Notice) :
    (world.beside seen).noted notices = (world.noted notices).beside seen := rfl

theorem World.withClock_beside (c : Clock) :
    (world.beside seen).withClock c = (world.withClock c).beside seen := rfl

end Beside

/-- A call of a patcher. -/
structure PatcherCall where
  patch : Patch
  body : Body
  instant : Instant

/-- A patcher whose calls are put on record. -/
def Patcher.watched (patcher : Patcher σ) : Patcher (Watched PatcherCall σ) := fun patch body =>
  (patcher patch body).watched fun start _ => ⟨patch, body, start.now⟩

theorem Patcher.seen_watched (patcher : Patcher σ) (patch : Patch) (body : Body)
    (world : World (Watched PatcherCall σ)) : (patcher.watched patch body world).2.env.seen =
      world.env.seen ++ [⟨patch, body, world.clock.now⟩] := rfl

/-- What a call that is put on record answers and leaves behind. -/
theorem Patcher.watched_apply (patcher : Patcher σ) (patch : Patch) (body : Body)
    (world : World (Watched PatcherCall σ)) : patcher.watched patch body world =
      let (answer, after) := patcher patch body (world.withEnv world.env.env)
      (answer, after.withEnv
        ⟨after.env, world.env.seen ++ [⟨patch, body, world.clock.now⟩]⟩) := rfl

/-- The same patcher where there is a record that is kept of something else. -/
def Patcher.unseen (patcher : Patcher σ) : Patcher (Watched ε σ) := fun patch body =>
  (patcher patch body).unseen

theorem Patcher.patchAndCheck_beside (patcher : Patcher σ) (known : List FieldPath) (patch : Patch)
    (body : Body) (world : World σ) (seen : List ε) :
    patcher.unseen.patchAndCheck known patch body (world.beside seen) =
      ((patcher.patchAndCheck known patch body world).1,
        (patcher.patchAndCheck known patch body world).2.beside seen) := by
  cases hempty : patch.isEmpty with
  | true => rw [patchAndCheck_empty _ _ _ _ hempty, patchAndCheck_empty _ _ _ _ hempty]
  | false =>
    rw [patchAndCheck_nonempty _ _ _ _ hempty, patchAndCheck_nonempty _ _ _ _ hempty,
      World.noted_beside, unseen, Attempt.unseen_beside]
    rfl

/-- A patcher during whose calls no time passes. -/
def Patcher.Instant (patcher : Patcher σ) : Prop :=
  ∀ patch body world, (patcher patch body world).2.clock = world.clock

end ControlLoop
