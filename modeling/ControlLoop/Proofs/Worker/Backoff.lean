import ControlLoop.Proofs.Worker.History
import ControlLoop.Script

/-!
# Backoff

A failure that a worker took in opens a window. Signals cut the wait for its end
into pieces, each of them a cycle that does not ask the handler, and the next
cycle waits for what is left. Whatever the signals, the handler is asked again
at the first millisecond that is not before the end of the window. The events
still to come are fewer after each piece, so that there are only so many.
-/

set_option autoImplicit false

namespace ControlLoop

variable {σ : Type}

namespace CycleRecord

/-- The cycle took a failure in, which opened a window with this end. -/
structure Opens (record : CycleRecord σ) (windowEnd : Instant) : Prop where
  throttled : record.outcome = .ok .throttled
  window : ∃ asked ∈ record.attempts, ∃ delay,
    record.after.lastUsed = some delay ∧ asked.finish.deadline delay = windowEnd

/-- No event that is to come once the attempt has failed is due as the window ends. -/
def Untied (record : CycleRecord σ) (windowEnd : Instant) : Prop :=
  ∀ asked ∈ record.attempts, ∀ e ∈ asked.finish.pending, e.due ≠ Clock.firstMillis windowEnd

/-- The cycle was spent waiting inside the window. -/
structure SkipsBefore (record : CycleRecord σ) (windowEnd : Instant) : Prop where
  skipped : record.outcome = .ok .skipped
  unasked : record.consulted = []
  inside : record.ended.clock.millis < Clock.firstMillis windowEnd

/-- The cycle asks the handler as the window ends. -/
def ResumesAt (record : CycleRecord σ) (windowEnd : Instant) : Prop :=
  ∃ c, record.consulted = [c] ∧ c.millis = Clock.firstMillis windowEnd

end CycleRecord

namespace Throttle

/-- The window is open and its end is to come, with no event due at that. -/
structure Within (t : Throttle) (c : Clock) (windowEnd : Instant) : Prop where
  opened : t.activeUntil = some windowEnd
  ahead : c.now ≤ windowEnd
  untied : ∀ e ∈ c.pending, e.due ≠ Clock.firstMillis windowEnd

/-- The window has ended just now. -/
structure Over (t : Throttle) (c : Clock) (windowEnd : Instant) : Prop where
  closed : t.activeUntil = none
  due : c.millis = Clock.firstMillis windowEnd

variable {t : Throttle} {c : Clock} {windowEnd : Instant}

/-- A wait for the end of the window reaches it, or is interrupted inside the window at the cost of
an event, unless the flag was set at first. -/
theorem Within.waited (h : t.Within c windowEnd) :
    (t.waited (some .flag) c).1.Over (t.waited (some .flag) c).2 windowEnd ∨
    (t.waited (some .flag) c).1.Within (t.waited (some .flag) c).2 windowEnd ∧
      (t.waited (some .flag) c).2.millis < Clock.firstMillis windowEnd ∧
      (c.signals.isSet .flag = false →
        (t.waited (some .flag) c).2.pending.length < c.pending.length) := by
  rcases waited_window .flag h.opened h.ahead h.untied with
    ⟨later, hwaited, hdue⟩ | ⟨later, hwaited, hearly, hsuffix, hshorter⟩
  · rw [hwaited]
    exact .inl ⟨rfl, hdue⟩
  · rw [hwaited]
    refine .inr ⟨⟨h.opened, ?_, ?_⟩, hearly, hshorter⟩
    · exact Nat.le_of_lt (Clock.now_lt_iff.2 hearly)
    · intro e he
      exact h.untied e (hsuffix.subset he)

theorem Over.not_throttling (h : t.Over c windowEnd) : t.isThrottling = false := by
  rw [isThrottling, h.closed]
  rfl

theorem Within.throttling (h : t.Within c windowEnd) : t.isThrottling = true := by
  rw [isThrottling, h.opened]
  rfl

end Throttle

namespace Worker

variable {worker : Worker σ} {t : Throttle} {world : World σ} {windowEnd : Instant}

/-- A cycle whose wait reached the end of the window asks the handler then. -/
theorem resumesAt_of_over {record : CycleRecord σ} {ready : Throttle} {begun done : World σ}
    {answer : Except Error CycleOutcome} (h : record.Goes worker ready begun done answer)
    (hover : ready.Over begun.clock windowEnd) : record.ResumesAt windowEnd := by
  refine ⟨begun.clock, ?_, hover.due⟩
  rw [h.consulted, hover.not_throttling]
  rfl

/-- Once the window has ended, the next cycle asks the handler at once. -/
theorem record_of_over (h : t.Over world.clock windowEnd) (body : Body) :
    (worker.record body t world).ResumesAt windowEnd := by
  obtain ⟨ready, begun, done, answer, hgoes⟩ := worker.exists_goes body t world
  have hwaited : t.waited (some .flag) (world.entering body).clock =
      (t, (world.entering body).clock) := by rw [Throttle.waited, h.closed]
  obtain ⟨hready, hbegun⟩ := Prod.mk.inj (hwaited.symm.trans hgoes.waited)
  refine resumesAt_of_over hgoes ⟨?_, ?_⟩
  · rw [← hready, h.closed]
  · rw [← hbegun, World.millis_entering, h.due]

variable (worker) in
/-- A cycle inside the window waits for its end and asks the handler then, or is spent waiting, at
the cost of an event. -/
theorem record_of_within (h : t.Within world.clock windowEnd) (body : Body) :
    (worker.record body t world).ResumesAt windowEnd ∨
    (worker.record body t world).SkipsBefore windowEnd ∧
      (worker.record body t world).after.Within (worker.record body t world).ended.clock
        windowEnd ∧
      (worker.record body t world).ended.clock.pending.length < world.clock.pending.length := by
  obtain ⟨ready, begun, done, answer, hgoes⟩ := worker.exists_goes body t world
  have hentered : t.Within (world.entering body).clock windowEnd := ⟨h.opened, h.ahead, h.untied⟩
  have hwaited := hentered.waited
  rw [show t.waited (some .flag) (world.entering body).clock = (ready, begun.clock) from
    hgoes.waited] at hwaited
  rcases hwaited with hover | ⟨hwithin, hearly, hshorter⟩
  · exact .inl (resumesAt_of_over hgoes hover)
  · obtain ⟨hskipped, hunasked, hafter, hended⟩ := hgoes.of_throttling hwithin.throttling
    refine .inr ⟨⟨hskipped, hunasked, ?_⟩, ?_, ?_⟩
    · rw [hended]
      exact hearly
    · rw [hafter, hended]
      exact hwithin
    · rw [hended]
      exact hshorter (World.isSet_entering world body)

/-- After the window the next cycle asks the handler, whatever the signals do until then. -/
theorem history_of_over (h : t.Over world.clock windowEnd) (steps : List (WorkerStep σ)) :
    ∀ next ∈ (worker.history steps t world).head?, next.ResumesAt windowEnd := by
  induction steps generalizing world with
  | nil =>
    intro next hnext
    cases hnext
  | cons step rest ih =>
    cases step with
    | cycle body =>
      intro next hnext
      cases hnext
      exact record_of_over h body
    | act action => exact ih ⟨h.closed, h.due⟩
    | change change => exact ih ⟨h.closed, h.due⟩

/-- Inside the window the cycles are spent waiting, at most one for each event, up to the one that
asks the handler as the window ends. -/
theorem history_of_within (h : t.Within world.clock windowEnd) (steps : List (WorkerStep σ)) :
    ∃ skipped resumed, worker.history steps t world = skipped ++ resumed ∧
      skipped.length ≤ world.clock.pending.length ∧
      (∀ record ∈ skipped, record.SkipsBefore windowEnd) ∧
      ∀ next ∈ resumed.head?, next.ResumesAt windowEnd := by
  induction steps generalizing t world with
  | nil => exact ⟨[], [], rfl, Nat.zero_le _, by simp, by simp⟩
  | cons step rest ih =>
    cases step with
    | act action => exact ih ⟨h.opened, h.ahead, h.untied⟩
    | change change => exact ih ⟨h.opened, h.ahead, h.untied⟩
    | cycle body =>
      rcases record_of_within worker h body with hresumes | ⟨hskips, hwithin, hfewer⟩
      · exact ⟨[], _, rfl, Nat.zero_le _, by simp, by simpa [history] using hresumes⟩
      · obtain ⟨skipped, resumed, hrest, hlength, hskipped, hresumed⟩ := ih hwithin
        refine ⟨worker.record body t world :: skipped, resumed, ?_, ?_, ?_, hresumed⟩
        · rw [history, hrest, List.cons_append]
        · rw [List.length_cons]
          omega
        · exact List.forall_mem_cons.2 ⟨hskips, hskipped⟩

/-- A cycle that opened a window ends inside it, with the window still open, or as it ends. -/
theorem record_of_opens {body : Body}
    (hopens : (worker.record body t world).Opens windowEnd)
    (huntied : (worker.record body t world).Untied windowEnd) :
    (worker.record body t world).after.Over (worker.record body t world).ended.clock windowEnd ∨
    (worker.record body t world).after.Within (worker.record body t world).ended.clock
      windowEnd := by
  obtain ⟨ready, begun, done, answer, hgoes⟩ := worker.exists_goes body t world
  obtain ⟨-, hended⟩ := hgoes.of_throttled hopens.throttled
  obtain ⟨asked, hasked, delay, hused, rfl⟩ := hopens.window
  have huntied := huntied asked hasked
  rw [hgoes.attempts, List.mem_singleton] at hasked
  subst hasked
  have hchosen : (ready.absorbing worker.errorDelays done.clock).lastUsed = some delay := by
    have hwaits := (ready.absorbing worker.errorDelays done.clock).waits (some .flag) done.clock
    rw [← hended] at hwaits
    exact hwaits.lastUsed_eq.symm.trans hused
  have hopened : (ready.absorbing worker.errorDelays done.clock).Within done.clock
      (done.clock.deadline delay) :=
    ⟨Throttle.activeUntil_absorbing hchosen, Clock.now_le_deadline _ _, huntied⟩
  have hwaited := hopened.waited
  rw [← hended] at hwaited
  exact hwaited.imp_right And.left

/-- Along every run of a worker, signals neither shorten nor lengthen the backoff. A cycle that
opened a window ends inside it, with its end kept, or as it ends. The cycles after that are spent
waiting inside the window, at most one for each event still to come, up to one that asks the handler
at the first millisecond that is not before the end of the window. -/
theorem history_resumes_at_window_end (worker : Worker σ) (steps : List (WorkerStep σ))
    (t : Throttle) (world : World σ) {earlier later : List (CycleRecord σ)}
    {failing : CycleRecord σ} {windowEnd : Instant}
    (hrun : worker.history steps t world = earlier ++ failing :: later)
    (hopens : failing.Opens windowEnd) (huntied : failing.Untied windowEnd) :
    (failing.after.activeUntil = some windowEnd ∧ failing.ended.clock.now ≤ windowEnd ∨
      failing.after.activeUntil = none ∧
        failing.ended.clock.millis = Clock.firstMillis windowEnd) ∧
    ∃ skipped resumed, later = skipped ++ resumed ∧
      skipped.length ≤ failing.ended.clock.pending.length ∧
      (∀ record ∈ skipped, record.SkipsBefore windowEnd) ∧
      ∀ next ∈ resumed.head?, next.ResumesAt windowEnd := by
  obtain ⟨body, before, started, rest, rfl, rfl⟩ := exists_rest_of_history_eq hrun
  rcases record_of_opens hopens huntied with hover | hwithin
  · refine ⟨.inr ⟨hover.closed, hover.due⟩, [], _, rfl, Nat.zero_le _, by simp, ?_⟩
    exact history_of_over hover rest
  · exact ⟨.inl ⟨hwithin.opened, hwithin.ahead⟩, history_of_within hwithin rest⟩

/-- A worker that follows a script and writes nothing, with a backoff of a second. -/
def scripted : Worker Script where
  handler := fun _ world =>
    let (result, script) := world.env.next
    (result, { world with env := script })
  effects := .ofSettings (fun _ _ => pure none) .default
  errorDelays := [Duration.second]

/-- A world in which the handler fails once, with signals after 500 and 700 milliseconds. -/
def signalledTwice : World Script where
  clock := (Clock.start.schedule 500 [.set]).schedule 700 [.set]
  stamp := fun n => toString n
  env := [.error (.permanent "no answer")]

/-- Three cycles in a row, with the flag set before the first. -/
def threeCycles : List (WorkerStep Script) :=
  [.act .set, .cycle .null, .cycle .null, .cycle .null]

/-- The backoff of a second is interrupted twice: the second cycle is spent waiting, and the third
one asks the handler after a second. -/
theorem interruptedTwice_resumes : ∃ failing skipped resumed : CycleRecord Script,
    scripted.history threeCycles .idle signalledTwice = [failing, skipped, resumed] ∧
    failing.Opens Duration.second ∧ failing.Untied Duration.second ∧
    failing.after.activeUntil = some Duration.second ∧
    skipped.SkipsBefore Duration.second ∧ resumed.ResumesAt Duration.second := by
  obtain ⟨failing, skipped, resumed, hrun, hthrottled, hattempts, hused, hopen, hunasked, hleft⟩ :
      ∃ failing skipped resumed : CycleRecord Script,
        scripted.history threeCycles .idle signalledTwice = [failing, skipped, resumed] ∧
        failing.outcome = .ok .throttled ∧
        failing.attempts.map Throttle.Asked.finish = [signalledTwice.clock] ∧
        failing.after.lastUsed = some Duration.second ∧ failing.after.isThrottling = true ∧
        skipped.consulted = [] ∧ failing.ended.clock.pending.length = 1 :=
    ⟨_, _, _, rfl, rfl, by decide, by decide, by decide, by decide, by decide⟩
  obtain ⟨asked, hattempts, hfinish⟩ := List.map_eq_singleton_iff.1 hattempts
  have hopens : failing.Opens Duration.second := by
    refine ⟨hthrottled, asked, ?_, Duration.second, hused, ?_⟩
    · rw [hattempts]
      exact List.mem_singleton_self asked
    · rw [hfinish]
      decide
  have huntied : failing.Untied Duration.second := by
    intro other hother
    rw [hattempts, List.mem_singleton] at hother
    rw [hother, hfinish]
    decide
  obtain ⟨hkept, waiting, rest, hlater, hlength, hskipped, hresumed⟩ :=
    history_resumes_at_window_end scripted threeCycles .idle signalledTwice
      (show _ = [] ++ failing :: [skipped, resumed] from hrun) hopens huntied
  have hopened : failing.after.activeUntil = some Duration.second := by
    rcases hkept with ⟨hopened, -⟩ | ⟨hclosed, -⟩
    · exact hopened
    · rw [Throttle.isThrottling, hclosed] at hopen
      cases hopen
  cases waiting with
  | nil =>
    have hrest : [skipped, resumed] = rest := hlater
    subst hrest
    obtain ⟨c, hconsulted, -⟩ := hresumed skipped rfl
    rw [hunasked] at hconsulted
    cases hconsulted
  | cons first waiting =>
    -- There is only one event left for the second signal, so no other cycle is spent waiting.
    have hnone : waiting = [] := by
      rw [hleft, List.length_cons] at hlength
      exact List.eq_nil_of_length_eq_zero (by omega)
    subst hnone
    obtain ⟨hfirst, hrest⟩ : skipped = first ∧ [resumed] = rest := List.cons.inj hlater
    subst hfirst
    subst hrest
    exact ⟨failing, skipped, resumed, hrun, hopens, huntied, hopened,
      hskipped skipped List.mem_cons_self, hresumed resumed rfl⟩

end Worker

end ControlLoop
