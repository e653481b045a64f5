import ControlLoop.Proofs.Throttle.History

/-!
# What a call does to the sequence of delays

By what its operation was told and answered, a call starts the sequence anew,
takes the next delay of it, or leaves its place alone. The first is a success of
an operation that was told to run, the second its failure with an error of
interest that is not fatal, and the third is anything else.
-/

set_option autoImplicit false

namespace ControlLoop

namespace Throttle

variable {σ α : Type}

section Failure

/-- What is noted about a failure that was taken in with a delay, or without one. -/
def failureNote (delay : Option Duration) (cause : Error) : Notice :=
  match delay with
  | some delay => .throttling delay cause
  | none => .backoffUnconfigured cause

theorem absorbingNote_eq (t : Throttle) (delays : List Duration) (cause : Error) :
    t.absorbingNote delays cause = failureNote (t.nextDelay delays).1 cause := rfl

/-- The call took its failure in with a delay: when its operation was done it opened a window, which
lasts until the delay is over, and it ended as the wait for that window does. Without a delay there
is no window. -/
structure Record.TakesIn (record : Record σ α) (delay : Option Duration) : Prop where
  remembered : record.after.lastUsed = delay
  opened : ∃ (begun failed : World σ) (cause : Error) (rest : List Duration)
      (windowEnd : Option Instant),
    record.Answered true begun (.error cause) failed ∧
    Option.Rel failed.clock.EndsAt delay windowEnd ∧
    (record.after, record.ended) =
      (⟨windowEnd, some rest, delay⟩ : Throttle).waitOut record.call.wakeup
        (failed.noted [failureNote delay cause])

theorem endsAt_map_deadline (c : Clock) (delay : Option Duration) :
    Option.Rel c.EndsAt delay (delay.map c.deadline) := by
  cases delay with
  | none => exact .none
  | some d => exact .some (c.endsAt_deadline d)

end Failure

section Verdict

/-- Whether the call starts the sequence anew: its operation was told to run, and succeeded. -/
def Record.releases (record : Record σ α) : Bool :=
  match record.outcome with
  | .ok (some _) => record.asked.any Asked.shouldRun
  | _ => false

/-- Whether the call took a failure in. -/
def Record.absorbs (record : Record σ α) : Bool :=
  match record.outcome with
  | .ok none => true
  | _ => false

/-- What a call does to the place in the sequence, by what its operation was told and answered. -/
inductive Record.Verdict (record : Record σ α) (told : Bool) : Except Error α → Prop where
  /-- The operation ran and succeeded: the sequence starts anew. -/
  | released (value : α) (ran : told = true) (outcome : record.outcome = .ok (some value))
      (source : record.after.source = none) (lastUsed : record.after.lastUsed = none) :
      Verdict record told (.ok value)
  /-- The operation ran and failed, and the failure takes the next delay. -/
  | absorbed (e : Error) (ran : told = true) (mild : e.isFatal = false)
      (caught : record.call.errors e = true) (outcome : record.outcome = .ok none)
      (takes : record.TakesIn (record.before.nextDelay record.call.delays).1)
      (source : record.after.source = some (record.before.nextDelay record.call.delays).2) :
      Verdict record told (.error e)
  /-- The operation did not run, or its failure is not taken in: the place stays. -/
  | passed {answer : Except Error α}
      (aside : told = false ∨
        ∃ e, answer = .error e ∧ (e.isFatal = true ∨ record.call.errors e = false))
      (outcome : record.outcome = answer.map some)
      (source : record.after.source = record.before.source)
      (lastUsed : record.after.lastUsed = record.before.lastUsed) : Verdict record told answer

namespace Record.GoesOn

variable {record : Record σ α} {ready : Throttle} {begun done : World σ}

/-- A success starts the sequence anew, unless the operation was told not to run. -/
theorem verdict_of_ok {value : α} (h : record.GoesOn ready begun (.ok value) done) :
    record.Verdict (!ready.isThrottling) (.ok value) := by
  obtain ⟨hresult, -⟩ := Prod.mk.inj h.concluded
  obtain ⟨houtcome, hafter⟩ := Prod.mk.inj hresult
  cases hready : ready.isThrottling with
  | false =>
    rw [hready] at hafter
    exact .released value rfl houtcome.symm (by rw [← hafter]; rfl) (by rw [← hafter]; rfl)
  | true =>
    rw [hready] at hafter
    exact .passed (.inl rfl) houtcome.symm (by rw [← hafter]; exact h.waits.source_eq)
      (by rw [← hafter]; exact h.waits.lastUsed_eq)

/-- A failure that is handed on leaves the place alone. -/
theorem verdict_of_refused {e : Error} (h : record.GoesOn ready begun (.error e) done)
    (hrefused : (e.isFatal || !record.call.errors e || ready.isThrottling) = true) :
    record.Verdict (!ready.isThrottling) (.error e) := by
  have hconcluded := h.concluded
  rw [conclude_of_refused _ _ hrefused] at hconcluded
  obtain ⟨hresult, -⟩ := Prod.mk.inj hconcluded
  obtain ⟨houtcome, hafter⟩ := Prod.mk.inj hresult
  refine .passed ?_ houtcome.symm (by rw [← hafter]; exact h.waits.source_eq)
    (by rw [← hafter]; exact h.waits.lastUsed_eq)
  simp only [Bool.or_eq_true, Bool.not_eq_true'] at hrefused
  rcases hrefused with hkind | hready
  · exact .inr ⟨e, rfl, hkind⟩
  · exact .inl (by rw [hready]; rfl)

/-- A failure that is taken in takes the next delay. -/
theorem verdict_of_caught {e : Error} (h : record.GoesOn ready begun (.error e) done)
    (hcaught : (e.isFatal || !record.call.errors e || ready.isThrottling) = false) :
    record.Verdict (!ready.isThrottling) (.error e) := by
  have hconcluded := h.concluded
  rw [conclude_of_caught _ _ hcaught] at hconcluded
  simp only [Bool.or_eq_false_iff, Bool.not_eq_false'] at hcaught
  obtain ⟨⟨hmild, hinterest⟩, hready⟩ := hcaught
  have hnext : ready.nextDelay record.call.delays = record.before.nextDelay record.call.delays := by
    rw [nextDelay, nextDelay, h.waits.source_eq, h.waits.lastUsed_eq]
  have closed : ready.activeUntil = none := by simpa [isThrottling] using hready
  rw [absorbing_closed record.call.delays done.clock closed, absorbingNote_eq, hnext] at hconcluded
  obtain ⟨left, later, hwait⟩ : ∃ left later,
      (⟨(record.before.nextDelay record.call.delays).1.map done.clock.deadline,
        some (record.before.nextDelay record.call.delays).2,
        (record.before.nextDelay record.call.delays).1⟩ : Throttle).waitOut record.call.wakeup
          (done.noted [failureNote (record.before.nextDelay record.call.delays).1 e]) =
      (left, later) := ⟨_, _, rfl⟩
  rw [hwait] at hconcluded
  obtain ⟨hresult, hended⟩ := Prod.mk.inj hconcluded
  obtain ⟨houtcome, hafter⟩ := Prod.mk.inj hresult
  rw [hafter, hended] at hwait
  have hanswered := h.answered
  rw [hready] at hanswered
  refine .absorbed e (by rw [hready]; rfl) hmild hinterest houtcome.symm
    ⟨?_, begun, done, e, _, _, hanswered, endsAt_map_deadline done.clock _, hwait.symm⟩ ?_
  · rw [show record.after = _ from congrArg Prod.fst hwait.symm, lastUsed_waitOut]
  · rw [show record.after = _ from congrArg Prod.fst hwait.symm, source_waitOut]

end Record.GoesOn

theorem Call.exists_verdict (call : Call σ α) (t : Throttle) (world : World σ) :
    ∃ told begun answer done, (call.record t world).Answered told begun answer done ∧
      (call.record t world).Verdict told answer := by
  obtain ⟨ready, begun, answer, done, hgoes⟩ := call.exists_goesOn t world
  refine ⟨!ready.isThrottling, begun, answer, done, hgoes.answered, ?_⟩
  cases answer with
  | ok value => exact hgoes.verdict_of_ok
  | error e =>
    cases hcaught : e.isFatal || !call.errors e || ready.isThrottling with
    | true => exact hgoes.verdict_of_refused hcaught
    | false => exact hgoes.verdict_of_caught hcaught

namespace Record

variable {record : Record σ α} {told : Bool} {begun done : World σ} {answer : Except Error α}

/-- What puts a call aside: its operation did not run, or failed with an error that is fatal or of
no interest. -/
theorem not_counted_of_aside (aside : told = false ∨
      ∃ e, answer = .error e ∧ (e.isFatal = true ∨ record.call.errors e = false)) :
    ¬ (told = true ∧ ((∃ value, answer = .ok value) ∨
      ∃ e, answer = .error e ∧ e.isFatal = false ∧ record.call.errors e = true)) := by
  rintro ⟨ran, hcounted⟩
  rcases aside with idle | ⟨e, rfl, refused⟩
  · rw [ran] at idle
    cases idle
  · rcases hcounted with ⟨value, hvalue⟩ | ⟨e', he', mild, caught⟩
    · cases hvalue
    · cases he'
      rw [mild, caught] at refused
      simp at refused

namespace Verdict

/-- A call starts the sequence anew just if its operation was told to run and succeeded. -/
theorem releases_iff (h : record.Verdict told answer)
    (hanswered : record.Answered told begun answer done) :
    record.releases = true ↔ told = true ∧ ∃ value, answer = .ok value := by
  have htold : record.asked.any Asked.shouldRun = told := by
    rw [hanswered.asked]
    simp
  cases h with
  | released value ran outcome => simp [releases, outcome, htold]
  | absorbed e ran mild caught outcome => simp [releases, outcome]
  | passed aside outcome =>
    cases answer with
    | ok value => simp [releases, outcome, Except.map, htold]
    | error e => simp [releases, outcome, Except.map]

/-- A call takes a failure in just if its operation was told to run and failed with an error that
is not fatal and of interest. -/
theorem absorbs_iff (h : record.Verdict told answer) :
    record.absorbs = true ↔ told = true ∧
      ∃ e, answer = .error e ∧ e.isFatal = false ∧ record.call.errors e = true := by
  cases h with
  | released value ran outcome => simp [absorbs, outcome]
  | absorbed e ran mild caught outcome => simp [absorbs, outcome, ran, mild, caught]
  | passed aside outcome =>
    constructor
    · intro habsorbs
      cases answer with
      | ok value => simp [absorbs, outcome, Except.map] at habsorbs
      | error e => simp [absorbs, outcome, Except.map] at habsorbs
    · rintro ⟨ran, hfailed⟩
      exact absurd ⟨ran, .inr hfailed⟩ (not_counted_of_aside aside)

end Verdict

end Record

end Verdict

end Throttle

end ControlLoop
