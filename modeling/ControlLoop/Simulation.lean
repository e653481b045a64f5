import ControlLoop.Script
import ControlLoop.Store

/-!
# Simulation

A worker whose handler follows a script acts on a store in memory. The run ends
when the object is gone, when a cycle has nothing left to do and the script is
used up, when a failure is fatal, or after a given number of cycles.
-/

set_option autoImplicit false

namespace ControlLoop

/-- A store and the script of a handler. -/
structure Scene where
  store : Store
  script : Script

namespace Scene

/-- Writes to the store, whatever body the write is for. -/
def patcher : Patcher Scene := fun patch _ world =>
  let (result, store) := world.env.store.patch patch
  (result, { world with env := { world.env with store := store } })

/-- Follows the script, whatever the body. -/
def handler : Handler Scene := fun _ world =>
  let (result, script) := world.env.script.next
  (result, { world with env := { world.env with script := script } })

/-- A worker that follows the script and writes to the store. -/
def worker (settings : Settings) : Worker Scene := .ofSettings handler patcher settings

end Scene

namespace Simulation

/-- The world at the start of a run. -/
def start (settings : Settings) (body : Body) (script : Script) (stamp : Nat → String) :
    World Scene where
  clock := .start
  stamp := stamp
  env := ⟨.ofBody body settings.effects.knownInconsistencies, script⟩

/-- Runs up to so many cycles, one after the other. -/
def cycles (worker : Worker Scene) : Nat → Throttle → Attempt Scene Unit
  | 0, _ => return ()
  | left + 1, throttle => do
    match (← get).env.store.object with
    | none => return ()
    | some body =>
      let (result, throttle) ← Attempt.lift (worker.runCycle throttle body)
      let outcome ← liftExcept result
      if outcome = .applied ∧ (← get).env.script.isEmpty then return ()
      else cycles worker left throttle
where
  /-- A result as an attempt. -/
  liftExcept {α : Type} (result : Except Error α) : Attempt Scene α := fun world => (result, world)

/-- Runs a script against a body. The answer is the body at the end, unless the object is gone, and
the world in which the run ended. -/
def run (settings : Settings) (body : Body) (script : Script) (maxCycles : Nat)
    (stamp : Nat → String) : Except Error (Option Body) × World Scene :=
  let (result, world) :=
    cycles (Scene.worker settings) maxCycles .idle (start settings body script stamp)
  (result.map fun _ => world.env.store.object, world)

end Simulation

end ControlLoop
