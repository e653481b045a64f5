import ControlLoop.Proofs.Clock
import ControlLoop.Proofs.Watched
import ControlLoop.Throttle

/-!
# One throttled call

A call waits, runs its operation once, and then releases the sequence, hands the
error on, or takes the failure in and waits again. What it does to the throttle
and to the clock depends on nothing else in the world.
-/

set_option autoImplicit false

namespace ControlLoop

namespace Throttle

variable {ε σ α : Type}

section Waiting

/-- The throttle and the clock once the open window was slept out, or the sleep interrupted. -/
def waited (t : Throttle) (wakeup : Option Wakeup) (c : Clock) : Throttle × Clock :=
  match t.activeUntil with
  | none => (t, c)
  | some windowEnd =>
    match c.sleepOrWait (.single (windowEnd - c.now)) wakeup with
    | (some _, later) => (t, later)
    | (none, later) => ({ t with activeUntil := none }, later)

/-- What is noted about a window that was slept out. -/
def waitingNotes (t : Throttle) (wakeup : Option Wakeup) (c : Clock) : List Notice :=
  if t.isThrottling && !(t.waited wakeup c).1.isThrottling then [.throttlingOver] else []

variable (t : Throttle) (wakeup : Option Wakeup)

theorem waitOut_apply (world : World σ) :
    t.waitOut wakeup world = ((t.waited wakeup world.clock).1,
      (world.noted (t.waitingNotes wakeup world.clock)).withClock
        (t.waited wakeup world.clock).2) := by
  cases hwindow : t.activeUntil with
  | none =>
    simp [waitOut, waited, waitingNotes, isThrottling, hwindow, Activity.pure_apply]
  | some windowEnd =>
    obtain ⟨left, later, hsleep⟩ : ∃ left later, world.clock.sleepOrWait
        (.single (windowEnd - world.clock.now)) wakeup = (left, later) := ⟨_, _, rfl⟩
    simp only [waitOut, waited, waitingNotes, isThrottling, hwindow, Activity.bind_apply,
      Activity.sleepOrWait, Activity.onClock, Activity.now, hsleep]
    cases left with
    | none => rfl
    | some left => simp [Activity.pure_apply, hwindow, World.withClock]

theorem env_waitOut (world : World σ) : (t.waitOut wakeup world).2.env = world.env := by
  rw [waitOut_apply, World.env_withClock, World.env_noted]

/-- The sleep does not look at a record beside the environment. -/
theorem waitOut_beside (world : World σ) (seen : List ε) :
    t.waitOut wakeup (world.beside seen) =
      ((t.waitOut wakeup world).1, (t.waitOut wakeup world).2.beside seen) := by
  rw [waitOut_apply, waitOut_apply, World.noted_beside, World.withClock_beside]
  rfl

/-- The ways in which a wait ends. -/
inductive Waits (c : Clock) : Throttle × Clock → Prop where
  /-- No window is open. -/
  | idle (closed : t.activeUntil = none) : Waits c (t, c)
  /-- The window is slept out. -/
  | slept {windowEnd : Instant} {later : Clock} (opened : t.activeUntil = some windowEnd)
      (forward : c.millis ≤ later.millis)
      (long : c.now + min (windowEnd - c.now) Clock.farFuture ≤ later.now) :
      Waits c ({ t with activeUntil := none }, later)
  /-- A signal interrupts the sleep, in the window unless an event is due as it ends. -/
  | interrupted {windowEnd : Instant} {later : Clock} {w : Wakeup}
      (opened : t.activeUntil = some windowEnd) (listens : wakeup = some w)
      (forward : c.millis ≤ later.millis) (signalled : later.signals.isSet w = true)
      (inside : c.now < windowEnd)
      (early : (∀ e ∈ c.pending, e.due ≠ Clock.firstMillis windowEnd) → later.now < windowEnd) :
      Waits c (t, later)

variable {t wakeup} in
/-- A wait changes nothing but the window. -/
theorem Waits.lastUsed_eq {c : Clock} {ended : Throttle × Clock} (h : Waits t wakeup c ended) :
    ended.1.lastUsed = t.lastUsed := by
  cases h <;> rfl

variable {t wakeup} in
theorem Waits.source_eq {c : Clock} {ended : Throttle × Clock} (h : Waits t wakeup c ended) :
    ended.1.source = t.source := by
  cases h <;> rfl

variable {t wakeup} in
/-- A wait that leaves the window open changes nothing at all. -/
theorem Waits.eq_of_throttling {c : Clock} {ended : Throttle × Clock} (h : Waits t wakeup c ended)
    (opened : ended.1.isThrottling = true) : ended.1 = t := by
  cases h with
  | idle => rfl
  | interrupted => rfl
  | slept => cases opened

theorem waits (c : Clock) : Waits t wakeup c (t.waited wakeup c) := by
  unfold waited
  split
  · next closed => exact .idle closed
  · next windowEnd opened =>
    have forward := c.millis_le_sleepOrWait (.single (windowEnd - c.now)) wakeup
    split
    · next left later hsleep =>
      rw [hsleep] at forward
      obtain ⟨w, listens, signalled⟩ := Clock.isSet_of_sleepOrWait_some hsleep
      have inside : c.now < windowEnd := by
        refine Nat.lt_of_sub_pos (Nat.pos_of_ne_zero fun hover => ?_)
        rw [hover, Clock.sleepOrWait_zero] at hsleep
        cases hsleep
      refine .interrupted opened listens forward signalled inside fun untied => ?_
      have hend : c.now + (windowEnd - c.now) = windowEnd :=
        Nat.add_sub_cancel' (Nat.le_of_lt inside)
      have early := Clock.lt_of_sleepOrWait_some hsleep
      rw [Clock.minimum_single, Option.getD_some, hend] at early
      exact early untied
    · next later hsleep =>
      rw [hsleep] at forward
      have long := Clock.le_of_sleepOrWait_none hsleep
      rw [Clock.minimum_single, Option.getD_some] at long
      exact .slept opened forward long

variable {t} in
/-- A wait that only a signal can interrupt ends the window at the millisecond for its end. If it is
interrupted, it is inside the window, at the cost of an event unless the signal was set at first. -/
theorem waited_window {c : Clock} {windowEnd : Instant} (w : Wakeup)
    (opened : t.activeUntil = some windowEnd) (ahead : c.now ≤ windowEnd)
    (untied : ∀ e ∈ c.pending, e.due ≠ Clock.firstMillis windowEnd) :
    (∃ later, t.waited (some w) c = ({ t with activeUntil := none }, later) ∧
      later.millis = Clock.firstMillis windowEnd) ∨
    ∃ later, t.waited (some w) c = (t, later) ∧ later.millis < Clock.firstMillis windowEnd ∧
      later.pending <:+ c.pending ∧
      (c.signals.isSet w = false → later.pending.length < c.pending.length) := by
  have hend : c.now + (windowEnd - c.now) = windowEnd := Nat.add_sub_cancel' ahead
  have hcases := c.sleepOrWait_cases (d := windowEnd - c.now) w (by rwa [hend])
  rw [hend] at hcases
  rcases hcases with ⟨later, hsleep, hover⟩ | ⟨left, later, hsleep, hinside⟩
  · refine .inl ⟨later, ?_, hover⟩
    rw [waited, opened]
    simp only [hsleep]
  · refine .inr ⟨later, ?_, hinside⟩
    rw [waited, opened]
    simp only [hsleep]

theorem source_waitOut (world : World σ) : (t.waitOut wakeup world).1.source = t.source := by
  rw [waitOut_apply]
  exact (t.waits wakeup world.clock).source_eq

theorem lastUsed_waitOut (world : World σ) : (t.waitOut wakeup world).1.lastUsed = t.lastUsed := by
  rw [waitOut_apply]
  exact (t.waits wakeup world.clock).lastUsed_eq

end Waiting

section Absorbing

variable (t : Throttle) (delays : List Duration)

/-- The throttle once it has taken a failure in. -/
def absorbing (c : Clock) : Throttle :=
  match t.nextDelay delays with
  | (some delay, rest) => ⟨some (c.deadline delay), some rest, some delay⟩
  | (none, rest) => { t with source := some rest }

/-- The chosen delay is remembered. Without one, none was used before. -/
theorem lastUsed_absorbing (c : Clock) :
    (t.absorbing delays c).lastUsed = (t.nextDelay delays).1 := by
  unfold absorbing nextDelay
  split
  · next delay rest h => rw [h]
  · next rest h =>
    rw [h]
    split at h
    · cases h
    · exact congrArg Prod.fst h

variable {t delays} in
/-- With a delay there is a window of that length. -/
theorem activeUntil_absorbing {c : Clock} {delay : Duration}
    (h : (t.absorbing delays c).lastUsed = some delay) :
    (t.absorbing delays c).activeUntil = some (c.deadline delay) := by
  rw [lastUsed_absorbing] at h
  rw [absorbing]
  split
  · next used rest hnext =>
    rw [hnext] at h
    cases h
    rfl
  · next rest hnext =>
    rw [hnext] at h
    cases h

variable {t} in
/-- A throttle without an open window, once it has taken a failure in. -/
theorem absorbing_closed (c : Clock) (closed : t.activeUntil = none) :
    t.absorbing delays c = ⟨(t.nextDelay delays).1.map c.deadline, some (t.nextDelay delays).2,
      (t.nextDelay delays).1⟩ := by
  have hused := lastUsed_absorbing t delays c
  revert hused
  rw [absorbing]
  split
  · next delay rest hnext =>
    rw [hnext]
    intro _
    rfl
  · next rest hnext =>
    rw [hnext]
    intro hused
    have hnone : t.lastUsed = none := hused
    rw [closed, hnone]
    rfl

/-- What is noted about a failure that was taken in. -/
def absorbingNote (cause : Error) : Notice :=
  match (t.nextDelay delays).1 with
  | some delay => .throttling delay cause
  | none => .backoffUnconfigured cause

theorem absorb_apply (cause : Error) (world : World σ) : t.absorb delays cause world =
    (t.absorbing delays world.clock, world.noted [t.absorbingNote delays cause]) := by
  simp only [absorb, absorbing, absorbingNote]
  cases t.nextDelay delays with
  | mk delay rest =>
    cases delay with
    | none => rfl
    | some delay => rfl

end Absorbing

section Run

variable (t : Throttle) (delays : List Duration) (wakeup : Option Wakeup) (errors : Error → Bool)

/-- How a call ends that goes on with this throttle, once its operation has answered. -/
def conclude (answered : Except Error α × World σ) :
    (Except Error (Option α) × Throttle) × World σ :=
  match answered with
  | (.ok value, done) =>
    ((.ok (some value), if !t.isThrottling then t.release else t), done)
  | (.error e, done) =>
    if e.isFatal || !errors e || t.isThrottling then ((.error e, t), done)
    else
      let (left, later) := (t.absorbing delays done.clock).waitOut wakeup
        (done.noted [t.absorbingNote delays e])
      ((.ok none, left), later)

variable {t errors} in
/-- A failure that is not taken in is handed on. -/
theorem conclude_of_refused {e : Error}
    (h : (e.isFatal || !errors e || t.isThrottling) = true) (done : World σ) :
    t.conclude delays wakeup errors ((.error e : Except Error α), done) =
      ((.error e, t), done) := by
  rw [conclude, if_pos h]

variable {t errors} in
/-- A failure that is taken in opens a window, which is waited for. -/
theorem conclude_of_caught {e : Error}
    (h : (e.isFatal || !errors e || t.isThrottling) = false) (done : World σ) :
    t.conclude delays wakeup errors ((.error e : Except Error α), done) =
      let (left, later) := (t.absorbing delays done.clock).waitOut wakeup
        (done.noted [t.absorbingNote delays e])
      ((.ok none, left), later) := by
  rw [conclude, h]
  rfl

/-- The operation is run once, after the wait. -/
theorem run_apply (operation : Bool → Attempt σ α) (world : World σ) :
    t.run delays wakeup errors operation world =
      let (ready, begun) := t.waitOut wakeup world
      ready.conclude delays wakeup errors (operation (!ready.isThrottling) begun) := by
  simp only [run, Activity.bind_apply]
  cases t.waitOut wakeup world with
  | mk ready begun =>
    simp only [ExceptT.run, conclude]
    cases operation (!ready.isThrottling) begun with
    | mk result done =>
      cases result with
      | ok value => rfl
      | error e =>
        simp only [Bool.not_not]
        split
        · rfl
        · rw [Activity.bind_apply, absorb_apply]
          rfl

theorem env_conclude (answer : Except Error α) (done : World σ) :
    (t.conclude delays wakeup errors (answer, done)).2.env = done.env := by
  cases answer with
  | ok value => rfl
  | error e =>
    simp only [conclude]
    split
    · rfl
    · exact env_waitOut _ _ _

/-- What follows the operation does not look at a record beside the environment. -/
theorem conclude_beside (answer : Except Error α) (done : World σ) (seen : List ε) :
    t.conclude delays wakeup errors (answer, done.beside seen) =
      ((t.conclude delays wakeup errors (answer, done)).1,
        (t.conclude delays wakeup errors (answer, done)).2.beside seen) := by
  cases answer with
  | ok value => rfl
  | error e =>
    simp only [conclude]
    split
    · rfl
    · rw [World.noted_beside, waitOut_beside]
      rfl

/-- To put the operation on record changes nothing of the call, and shows the operation run once. -/
theorem run_recorded (operation : Bool → Attempt σ α)
    (entry : Bool → World σ → Except Error α × World σ → ε) (world : World σ) (seen : List ε) :
    t.run delays wakeup errors (fun shouldRun => (operation shouldRun).recorded (entry shouldRun))
        (world.beside seen) =
      let (ready, begun) := t.waitOut wakeup world
      let shouldRun := !ready.isThrottling
      let (result, after) := t.run delays wakeup errors operation world
      (result, after.beside
        (seen ++ [entry shouldRun begun (operation shouldRun begun)])) := by
  simp only [run_apply, waitOut_beside, Attempt.recorded_beside, conclude_beside]
  rfl

/-- To watch the operation changes nothing of the call, and shows the operation run once. -/
theorem run_watched (operation : Bool → Attempt σ α) (entry : Bool → Clock → Clock → ε)
    (world : World σ) (seen : List ε) :
    t.run delays wakeup errors (fun shouldRun => (operation shouldRun).watched (entry shouldRun))
        (world.beside seen) =
      let (ready, begun) := t.waitOut wakeup world
      let shouldRun := !ready.isThrottling
      let (result, after) := t.run delays wakeup errors operation world
      (result, after.beside
        (seen ++ [entry shouldRun begun.clock (operation shouldRun begun).2.clock])) :=
  run_recorded t delays wakeup errors operation
    (fun shouldRun start ended => entry shouldRun start.clock ended.2.clock) world seen

end Run

end Throttle

end ControlLoop
