import ControlLoop.Proofs.Throttle.Run

/-!
# Histories of a throttle

A throttle lives through calls, with anything else happening to the clock in
between. Each call has its own delays, signal, filter and operation. A history
records for every call what the operation was told and when it ran.
-/

set_option autoImplicit false

namespace ControlLoop

namespace Throttle

/-- What is passed to a throttled call. -/
structure Call (σ α : Type) where
  delays : List Duration
  wakeup : Option Wakeup
  errors : Error → Bool
  operation : Bool → Attempt σ α
  /-- Time does not go back while the operation runs. -/
  forward : ∀ (shouldRun : Bool) (world : World σ),
    world.clock.millis ≤ (operation shouldRun world).2.clock.millis

/-- What an operation was told, and the clock when it was called and when it was done. -/
structure Asked where
  shouldRun : Bool
  start : Clock
  finish : Clock

/-- A call that was made. -/
structure Record (σ α : Type) where
  call : Call σ α
  before : Throttle
  started : World σ
  asked : List Asked
  outcome : Except Error (Option α)
  after : Throttle
  ended : World σ

/-- The delay that was chosen, if a failure was taken in. -/
def Record.chosen {σ α : Type} (record : Record σ α) : Option Duration :=
  match record.outcome with
  | .ok none => record.after.lastUsed
  | _ => none

/-- What happens to the clock between the calls. -/
inductive ClockMove where
  | pass (millis : Nat)
  | act (action : SignalAction)
  | schedule (after : Nat) (actions : List SignalAction)

namespace ClockMove

/-- The clock after a move. -/
def apply : ClockMove → Clock → Clock
  | pass millis, c => c.passTo (c.millis + millis)
  | act action, c => c.act action
  | schedule after actions, c => c.schedule after actions

theorem millis_le_apply (move : ClockMove) (c : Clock) : c.millis ≤ (move.apply c).millis := by
  cases move with
  | pass millis =>
    rw [apply, Clock.millis_passTo]
    exact Nat.le_max_left _ _
  | act action => exact Nat.le_refl _
  | schedule after actions => exact Nat.le_refl _

end ClockMove

/-- A step of a run. -/
inductive Move (σ α : Type) where
  | between (move : ClockMove)
  | call (call : Call σ α)

variable {σ α : Type}

/-- The operation of a call was called once, was told whether to run, and gave an answer. -/
structure Record.Answered (record : Record σ α) (told : Bool) (begun : World σ)
    (answer : Except Error α) (done : World σ) : Prop where
  asked : record.asked = [⟨told, begun.clock, done.clock⟩]
  answered : record.call.operation told begun = (answer, done)

/-- How a call goes: after its wait it goes on with the throttle `ready`, its operation gives an
answer, and it is concluded with that. -/
structure Record.GoesOn (record : Record σ α) (ready : Throttle) (begun : World σ)
    (answer : Except Error α) (done : World σ) : Prop where
  waits : Waits record.before record.call.wakeup record.started.clock (ready, begun.clock)
  answered : record.Answered (!ready.isThrottling) begun answer done
  concluded : ready.conclude record.call.delays record.call.wakeup record.call.errors
    (answer, done) = ((record.outcome, record.after), record.ended)

namespace Call

variable (call : Call σ α) (t : Throttle) (world : World σ)

/-- Makes a call. -/
def make : Activity σ (Except Error (Option α) × Throttle) :=
  t.run call.delays call.wakeup call.errors call.operation

/-- What the operation is told in a call, each time that it is called. -/
def asked : List Asked :=
  (t.run call.delays call.wakeup call.errors
    (fun shouldRun => (call.operation shouldRun).watched (Asked.mk shouldRun))
    (world.withEnv ⟨world.env, []⟩)).2.env.seen

/-- The record of a call. -/
def record : Record σ α where
  call := call
  before := t
  started := world
  asked := call.asked t world
  outcome := (call.make t world).1.1
  after := (call.make t world).1.2
  ended := (call.make t world).2

/-- A call waits, calls its operation once, and is concluded. -/
theorem exists_goesOn :
    ∃ ready begun answer done, (call.record t world).GoesOn ready begun answer done := by
  have hwaits := t.waits call.wakeup world.clock
  obtain ⟨ready, begun, hwait, hready⟩ : ∃ (ready : Throttle) (begun : World σ),
      t.waitOut call.wakeup world = (ready, begun) ∧
      t.waited call.wakeup world.clock = (ready, begun.clock) :=
    ⟨_, _, t.waitOut_apply call.wakeup world, rfl⟩
  rw [hready] at hwaits
  obtain ⟨answer, done, hanswer⟩ : ∃ (answer : Except Error α) (done : World σ),
      call.operation (!ready.isThrottling) begun = (answer, done) := ⟨_, _, rfl⟩
  refine ⟨ready, begun, answer, done, hwaits, ⟨?_, hanswer⟩, ?_⟩
  · simp only [record, asked, World.withEnv_env, run_watched, hwait, hanswer]
    rfl
  · simp only [record, make, run_apply, hwait, hanswer]

/-- The ways in which a call ends that goes on with the throttle `ready` and whose operation is done
at `finish`. -/
inductive Ends (ready : Throttle) (finish : Clock) :
    Except Error (Option α) → Throttle × Clock → Prop where
  /-- The operation succeeds. -/
  | succeeded (value : α) : Ends ready finish (.ok (some value))
      (if !ready.isThrottling then ready.release else ready, finish)
  /-- The failure is handed on. -/
  | escalated (e : Error) : Ends ready finish (.error e) (ready, finish)
  /-- The failure is taken in. -/
  | absorbed {ended : Throttle × Clock} (closed : ready.isThrottling = false)
      (waits : Waits (ready.absorbing call.delays finish) call.wakeup finish ended) :
      Ends ready finish (.ok none) ended

end Call

theorem Record.GoesOn.ends {record : Record σ α} {ready : Throttle} {begun done : World σ}
    {answer : Except Error α} (h : record.GoesOn ready begun answer done) :
    record.call.Ends ready done.clock record.outcome (record.after, record.ended.clock) := by
  have hconcluded := h.concluded
  cases answer with
  | ok value =>
    obtain ⟨hresult, hended⟩ := Prod.mk.inj hconcluded
    obtain ⟨houtcome, hafter⟩ := Prod.mk.inj hresult
    rw [← houtcome, ← hafter, ← hended]
    exact .succeeded value
  | error e =>
    cases hcaught : e.isFatal || !record.call.errors e || ready.isThrottling with
    | true =>
      rw [conclude_of_refused _ _ hcaught] at hconcluded
      obtain ⟨hresult, hended⟩ := Prod.mk.inj hconcluded
      obtain ⟨houtcome, hafter⟩ := Prod.mk.inj hresult
      rw [← houtcome, ← hafter, ← hended]
      exact .escalated e
    | false =>
      rw [conclude_of_caught _ _ hcaught, waitOut_apply] at hconcluded
      obtain ⟨hresult, hended⟩ := Prod.mk.inj hconcluded
      obtain ⟨houtcome, hafter⟩ := Prod.mk.inj hresult
      rw [← houtcome, ← hafter, ← hended]
      simp only [Bool.or_eq_false_iff] at hcaught
      exact .absorbed hcaught.2 (Throttle.waits _ _ _)

/-- A call waits, calls its operation once, and ends. -/
theorem Call.record_cases (call : Call σ α) (t : Throttle) (world : World σ) :
    ∃ (ready : Throttle) (begun finish : Clock),
      Waits t call.wakeup world.clock (ready, begun) ∧ begun.millis ≤ finish.millis ∧
      (call.record t world).asked = [⟨!ready.isThrottling, begun, finish⟩] ∧
      call.Ends ready finish (call.record t world).outcome
        ((call.record t world).after, (call.record t world).ended.clock) := by
  obtain ⟨ready, begun, answer, done, hgoes⟩ := call.exists_goesOn t world
  have hforward := call.forward (!ready.isThrottling) begun
  rw [show call.operation (!ready.isThrottling) begun = (answer, done) from
    hgoes.answered.answered] at hforward
  exact ⟨ready, begun.clock, done.clock, hgoes.waits, hforward, hgoes.answered.asked, hgoes.ends⟩

/-- The records of the calls of a run. -/
def history : List (Move σ α) → Throttle → World σ → List (Record σ α)
  | [], _, _ => []
  | .between move :: rest, t, world =>
    history rest t { world with clock := move.apply world.clock }
  | .call call :: rest, t, world =>
    call.record t world ::
      history rest (call.record t world).after (call.record t world).ended

/-- Every record of a history is the record of a call. -/
theorem exists_record_of_mem_history {moves : List (Move σ α)} {t : Throttle} {world : World σ}
    {record : Record σ α} (h : record ∈ history moves t world) :
    ∃ (call : Call σ α) (before : Throttle) (started : World σ),
      record = call.record before started := by
  induction moves generalizing t world with
  | nil => cases h
  | cons move rest ih =>
    cases move with
    | between move => exact ih h
    | call call =>
      rcases List.mem_cons.1 h with rfl | h
      · exact ⟨call, t, world, rfl⟩
      · exact ih h

end Throttle

end ControlLoop
