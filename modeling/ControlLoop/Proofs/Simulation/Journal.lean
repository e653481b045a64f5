import ControlLoop.Proofs.Worker.Undisturbed

/-!
# The journal of a run

A run of the simulator is a row of cycles, each of which starts as the one before
has ended, and it ends as its last cycle does. Nothing disturbs its cycles, so
they play the entries of the script in their order. A fatal entry is the last
one that is played. Without one the whole script is played as far as the limit
allows, and one cycle more unless the last entry settles everything.
-/

set_option autoImplicit false

namespace ControlLoop

namespace Simulation

open Worker (plainOutcome)

/-- Whether a cycle with this outcome is the last one when so much of the script is left. -/
def ends (outcome : Except Error CycleOutcome) (left : Script) : Bool :=
  match outcome with
  | .error _ => true
  | .ok outcome => outcome = .applied ∧ left.isEmpty

section Journal

variable (worker : Worker Scene)

/-- The records of the cycles of a run. -/
def journal : Nat → Throttle → World Scene → List (CycleRecord Scene)
  | 0, _, _ => []
  | left + 1, t, world =>
    match world.env.store.object with
    | none => []
    | some body =>
      let record := worker.record body t world
      record :: if ends record.outcome record.ended.env.script then []
        else journal left record.after record.ended

/-- How a run ends that has these records: as the last of them does. -/
def lastState (records : List (CycleRecord Scene)) (world : World Scene) :
    Except Error Unit × World Scene :=
  match records.getLast? with
  | none => (.ok (), world)
  | some last => (last.outcome.map fun _ => (), last.ended)

theorem lastState_cons (record : CycleRecord Scene) (records : List (CycleRecord Scene))
    (world : World Scene) (hgoing : ∃ outcome, record.outcome = .ok outcome) :
    lastState (record :: records) world = lastState records record.ended := by
  obtain ⟨outcome, houtcome⟩ := hgoing
  unfold lastState
  rw [List.getLast?_cons]
  cases records.getLast? with
  | none => simp [houtcome, Except.map]
  | some last => rfl

/-- The first of the cycles that are left decides whether there is another one. -/
theorem cycles_succ (left : Nat) (t : Throttle) (world : World Scene) :
    cycles worker (left + 1) t world =
      match world.env.store.object with
      | none => (.ok (), world)
      | some body =>
        let record := worker.record body t world
        match record.outcome with
        | .error e => (.error e, record.ended)
        | .ok outcome =>
          if outcome = .applied ∧ record.ended.env.script.isEmpty then (.ok (), record.ended)
          else cycles worker left record.after record.ended := by
  rw [cycles, Attempt.bind_apply, Attempt.get_apply]
  cases hobject : world.env.store.object with
  | none =>
    simp only [hobject]
    rfl
  | some body =>
    -- The record stays folded, so that both sides match on the same outcome.
    have hrun : worker.runCycle t body world = (((worker.record body t world).outcome,
      (worker.record body t world).after), (worker.record body t world).ended) := rfl
    simp only [hobject, Attempt.bind_apply, Attempt.lift_apply, hrun, cycles.liftExcept,
      Attempt.get_apply]
    cases (worker.record body t world).outcome with
    | error e => rfl
    | ok outcome =>
      dsimp only
      split <;> rfl

/-- The cycles of a run are those in its journal. -/
theorem cycles_apply (left : Nat) (t : Throttle) (world : World Scene) :
    cycles worker left t world = lastState (journal worker left t world) world := by
  induction left generalizing t world with
  | zero => rfl
  | succ left ih =>
    rw [cycles_succ, journal]
    cases world.env.store.object with
    | none => rfl
    | some body =>
      dsimp only
      generalize worker.record body t world = record
      cases houtcome : record.outcome with
      | error e => simp [ends, lastState, houtcome, Except.map]
      | ok outcome =>
        by_cases hlast : outcome = .applied ∧ record.ended.env.script.isEmpty
        · simp [ends, hlast, lastState, houtcome, Except.map]
        · rw [lastState_cons _ _ _ ⟨outcome, houtcome⟩]
          simp only [ends, hlast]
          exact ih record.after record.ended

theorem run_apply (settings : Settings) (body : Body) (script : Script) (maxCycles : Nat)
    (stamp : Nat → String) : run settings body script maxCycles stamp =
      let world := start settings body script stamp
      let (result, ended) :=
        lastState (journal (Scene.worker settings) maxCycles .idle world) world
      (result.map fun _ => ended.env.store.object, ended) := by
  unfold run
  rw [cycles_apply]

end Journal

section Played

section Undisturbed

variable {settings : Settings} {body : Body} {collapsing : List FieldPath} {left : Nat}
  {t : Throttle} {world : World Scene}

end Undisturbed

/-- Whether a cycle with this answer ends the run with an error. -/
def isFinal (answer : Except Error Outcome) : Bool :=
  match plainOutcome answer with
  | .error _ => true
  | .ok _ => false

variable {answer : Except Error Outcome} {script : Script}

/-- The cycle after the script, unless the last entry ends the run. -/
def closing (script : Script) : Script :=
  match script.getLast? with
  | none => [.ok .nothing]
  | some last => if ends (plainOutcome last) [] then [] else [.ok .nothing]

/-- No call that the limit allows for ends the run with an error. -/
def Plain (left : Nat) (script : Script) : Prop :=
  ∀ f, script.findIdx? isFinal = some f → left ≤ f

theorem Plain.next {left : Nat} (h : Plain (left + 1) script) :
    isFinal script.next.1 = false ∧ Plain left script.tail := by
  cases script with
  | nil => exact ⟨rfl, fun f hf => nomatch hf⟩
  | cons answer rest =>
    have hfirst : isFinal answer = false := by
      rw [← Bool.not_eq_true]
      intro hfinal
      have hnone := h 0 (by rw [List.findIdx?_cons, if_pos hfinal])
      cases hnone
    refine ⟨hfirst, fun f hf => Nat.le_of_succ_le_succ (h (f + 1) ?_)⟩
    have hrest : rest.findIdx? isFinal = some f := hf
    simp [List.findIdx?_cons, hfirst, hrest]

section Undisturbed

variable {settings : Settings} {body : Body} {collapsing : List FieldPath} {left : Nat}
  {t : Throttle} {world : World Scene}

end Undisturbed

end Played

end Simulation

end ControlLoop
