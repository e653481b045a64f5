import ControlLoop.Proofs.Throttle.History

/-!
# Windows are kept

Once a failure has opened a window, no operation is told to run before the
window is over, however often the sleep is interrupted and by whichever calls.
An operation is told not to run only in an open window, while the signal is set
that interrupted the wait. A window is at most thirty years long to a plain
sleep, and ends thirty years from its start where the clock cannot show its end.
-/

set_option autoImplicit false

namespace ControlLoop

namespace Throttle

variable {σ α : Type}

/-- Nothing runs before an instant, at most thirty years off: it is past, or the open window lasts
until then. -/
structure Holds (bound : Instant) (t : Throttle) (c : Clock) : Prop where
  near : bound ≤ c.now + Clock.farFuture
  kept : bound ≤ c.now ∨ ∃ windowEnd, t.activeUntil = some windowEnd ∧ bound ≤ windowEnd

namespace Holds

variable {bound : Instant} {t : Throttle} {c d : Clock}

theorem of_le (h : bound ≤ c.now) : Holds bound t c :=
  ⟨Nat.le_add_right_of_le h, .inl h⟩

theorem later (h : Holds bound t c) (hle : c.millis ≤ d.millis) : Holds bound t d := by
  have hnow := Clock.now_le_now hle
  refine ⟨Nat.le_trans h.near (Nat.add_le_add_right hnow _), ?_⟩
  rcases h.kept with hpast | hopen
  · exact .inl (Nat.le_trans hpast hnow)
  · exact .inr hopen

/-- Without an open window the instant is past. -/
theorem le_now (h : Holds bound t c) (closed : t.isThrottling = false) : bound ≤ c.now := by
  rcases h.kept with hpast | ⟨windowEnd, opened, -⟩
  · exact hpast
  · rw [isThrottling, opened] at closed
    cases closed

/-- A wait keeps the window, and comes to its end no earlier. -/
theorem waits {wakeup : Option Wakeup} {ended : Throttle × Clock} (h : Holds bound t c)
    (hwaits : Waits t wakeup c ended) : Holds bound ended.1 ended.2 := by
  cases hwaits with
  | idle => exact h
  | @slept windowEnd later opened forward long =>
    refine of_le (Nat.le_trans ?_ long)
    have hnear := h.near
    rcases h.kept with hpast | ⟨windowEnd', opened', hkept⟩
    · exact Nat.le_add_right_of_le hpast
    · rw [opened] at opened'
      cases opened'
      have hsplit : ∀ start now far stop : Nat, start ≤ now + far → start ≤ stop →
          start ≤ now + min (stop - now) far := by
        intro start now far stop
        omega
      exact hsplit _ _ _ _ hnear hkept
  | interrupted _ _ forward => exact h.later forward

end Holds

/-- The window that a failure opens lasts for its delay, or for thirty years. -/
theorem holds_absorbing {t : Throttle} {delays : List Duration} {c : Clock} {delay : Duration}
    (h : (t.absorbing delays c).lastUsed = some delay) :
    Holds (c.now + min delay Clock.farFuture) (t.absorbing delays c) c := by
  refine ⟨Nat.add_le_add_left (Nat.min_le_right _ _) _, .inr ⟨c.deadline delay, ?_, ?_⟩⟩
  · exact activeUntil_absorbing h
  · exact c.le_deadline delay

section Ends

variable {call : Call σ α} {ready : Throttle} {finish : Clock}
  {outcome : Except Error (Option α)} {ended : Throttle × Clock}

/-- However a call ends, it keeps the window. -/
theorem Holds.ends {bound : Instant} (h : Holds bound ready finish)
    (hends : call.Ends ready finish outcome ended) : Holds bound ended.1 ended.2 := by
  cases hends with
  | succeeded value =>
    cases hclosed : ready.isThrottling with
    | true => exact h
    | false => exact of_le (h.le_now hclosed)
  | escalated e => exact h
  | absorbed closed waits => exact (of_le (h.le_now closed)).waits waits

/-- A call that takes a failure in opens a window. -/
theorem Call.Ends.holds_of_chosen {delay : Duration}
    (hends : call.Ends ready finish (.ok none) ended) (hchosen : ended.1.lastUsed = some delay) :
    Holds (finish.now + min delay Clock.farFuture) ended.1 ended.2 := by
  cases hends with
  | absorbed closed waits =>
    rw [waits.lastUsed_eq] at hchosen
    exact (holds_absorbing hchosen).waits waits

/-- An open window stays as it is. -/
theorem Call.Ends.eq_of_throttling (hends : call.Ends ready finish outcome ended)
    (opened : ready.isThrottling = true) : ended = (ready, finish) := by
  cases hends with
  | succeeded value => rw [opened]; rfl
  | escalated e => rfl
  | absorbed closed waits => rw [opened] at closed; cases closed

end Ends

section Record

variable {bound : Instant} {t : Throttle} {world : World σ}

/-- A call keeps the window, and runs its operation only after that. -/
theorem Holds.record (h : Holds bound t world.clock) (call : Call σ α) :
    Holds bound (call.record t world).after (call.record t world).ended.clock ∧
    ∀ asked ∈ (call.record t world).asked, asked.shouldRun = true → bound ≤ asked.start.now := by
  obtain ⟨ready, begun, finish, hwaits, hforward, hasked, hends⟩ := call.record_cases t world
  have hready : Holds bound ready begun := h.waits hwaits
  refine ⟨(hready.later hforward).ends hends, ?_⟩
  intro asked hmem hrun
  rw [hasked, List.mem_singleton] at hmem
  subst hmem
  exact hready.le_now (by simpa using hrun)

/-- No call of a run runs its operation before the window is over. -/
theorem Holds.history (h : Holds bound t world.clock) (moves : List (Move σ α)) :
    ∀ record ∈ history moves t world, ∀ asked ∈ record.asked,
      asked.shouldRun = true → bound ≤ asked.start.now := by
  induction moves generalizing t world with
  | nil =>
    intro record hrecord
    cases hrecord
  | cons move rest ih =>
    cases move with
    | between move => exact ih (h.later (move.millis_le_apply world.clock))
    | call call =>
      obtain ⟨hafter, hasked⟩ := h.record call
      intro record hrecord
      rcases List.mem_cons.1 hrecord with rfl | hrecord
      · exact hasked
      · exact ih hafter record hrecord

/-- A failure that was taken in opens a window. -/
theorem holds_of_chosen {call : Call σ α} {delay : Duration}
    (h : (call.record t world).chosen = some delay) :
    ∀ failed ∈ (call.record t world).asked,
      Holds (failed.finish.now + min delay Clock.farFuture) (call.record t world).after
        (call.record t world).ended.clock := by
  obtain ⟨ready, begun, finish, -, -, hasked, hends⟩ := call.record_cases t world
  intro failed hmem
  rw [hasked, List.mem_singleton] at hmem
  subst hmem
  rw [Record.chosen] at h
  split at h
  · next houtcome =>
    rw [houtcome] at hends
    exact hends.holds_of_chosen h
  · cases h

/-- What the throttle, the signal and the clock are like when an operation is told not to run. -/
structure Held (record : Record σ α) (asked : Asked) (windowEnd : Instant) : Prop where
  opened : record.before.activeUntil = some windowEnd
  unchanged : record.after = record.before
  signalled : ∃ wakeup,
    record.call.wakeup = some wakeup ∧ asked.start.signals.isSet wakeup = true
  inside : record.started.clock.now < windowEnd
  early : (∀ e ∈ record.started.clock.pending, e.due ≠ Clock.firstMillis windowEnd) →
    asked.start.now < windowEnd

/-- An operation is called once, and told not to run only in an open window. -/
theorem exists_asked (call : Call σ α) (t : Throttle) (world : World σ) :
    ∃ asked, (call.record t world).asked = [asked] ∧
      (asked.shouldRun = false → ∃ windowEnd, Held (call.record t world) asked windowEnd) := by
  obtain ⟨ready, begun, finish, hwaits, -, hasked, hends⟩ := call.record_cases t world
  refine ⟨_, hasked, ?_⟩
  intro htold
  have opened : ready.isThrottling = true := by simpa using htold
  have hafter : (call.record t world).after = ready :=
    congrArg Prod.fst (hends.eq_of_throttling opened)
  cases hwaits with
  | idle closed =>
    rw [isThrottling, closed] at opened
    cases opened
  | slept => cases opened
  | interrupted open' listens _ signalled inside early =>
    exact ⟨_, open', hafter, ⟨_, listens, signalled⟩, inside, early⟩

end Record

/-- Along every run, from whatever throttle and world, an operation that is told to run is called
after every window that an earlier failure opened; and an operation that is told not to run is
called in an open window, with the signal set that its call listens to. -/
theorem history_keeps_windows (moves : List (Move σ α)) (t : Throttle) (world : World σ) :
    ((history moves t world).Pairwise fun first later =>
      ∀ delay, first.chosen = some delay →
        ∀ failed ∈ first.asked, ∀ asked ∈ later.asked, asked.shouldRun = true →
          failed.finish.now + min delay Clock.farFuture ≤ asked.start.now) ∧
    ∀ record ∈ history moves t world, ∃ asked, record.asked = [asked] ∧
      (asked.shouldRun = false → ∃ windowEnd, Held record asked windowEnd) := by
  constructor
  · induction moves generalizing t world with
    | nil => exact List.Pairwise.nil
    | cons move rest ih =>
      cases move with
      | between move => exact ih _ _
      | call call =>
        refine List.pairwise_cons.2 ⟨?_, ih _ _⟩
        intro later hlater delay hchosen failed hfailed
        exact (holds_of_chosen hchosen failed hfailed).history rest later hlater
  · intro record hrecord
    obtain ⟨call, before, started, rfl⟩ := exists_record_of_mem_history hrecord
    exact exists_asked call before started

/-- A call whose operation fails, with one delay. -/
def failing : Call Unit Unit where
  delays := [Duration.second]
  wakeup := some .flag
  errors := Error.isThrottleable
  operation := fun _ => throw (.temporary "no answer")
  forward := fun _ _ => Nat.le_refl _

/-- A call whose operation succeeds. -/
def succeeding : Call Unit Unit where
  delays := [Duration.second]
  wakeup := some .flag
  errors := Error.isThrottleable
  operation := fun _ => pure ()
  forward := fun _ _ => Nat.le_refl _

/-- A failure whose window is interrupted, a call in the window, and one once the flag is
cleared. -/
def interruption : List (Move Unit Unit) :=
  [.between (.schedule 500 [.set]), .call failing, .call succeeding, .between (.act .clear),
    .call succeeding]

/-- A world in which nothing has happened. -/
def quietWorld : World Unit where
  clock := .start
  stamp := fun n => toString n
  env := ()

/-- The call in the window is told not to run, and the last one runs after the window. -/
theorem interruption_keeps_window : ∃ first second third : Record Unit Unit,
    history interruption .idle quietWorld = [first, second, third] ∧
    first.chosen = some Duration.second ∧
    (∃ asked ∈ second.asked, asked.shouldRun = false ∧ ∃ windowEnd, Held second asked windowEnd) ∧
    ∃ failed ∈ first.asked, ∃ asked ∈ third.asked, asked.shouldRun = true ∧
      failed.finish.now + min Duration.second Clock.farFuture ≤ asked.start.now := by
  obtain ⟨hwindows, htold⟩ := history_keeps_windows interruption .idle quietWorld
  obtain ⟨first, second, third, hrun, hchosen, hsecond, hthird⟩ :
      ∃ first second third : Record Unit Unit,
        history interruption .idle quietWorld = [first, second, third] ∧
        first.chosen = some Duration.second ∧
        second.asked.map Asked.shouldRun = [false] ∧
        third.asked.map Asked.shouldRun = [true] := ⟨_, _, _, rfl, by decide, by decide, by decide⟩
  rw [hrun] at hwindows htold
  obtain ⟨failed, hfailed, -⟩ := htold first (by simp)
  obtain ⟨refused, hrefused, hheld⟩ := htold second (by simp)
  obtain ⟨resumed, hresumed, -⟩ := htold third (by simp)
  have hrefusal : refused.shouldRun = false := by simpa [hrefused] using hsecond
  have hresumption : resumed.shouldRun = true := by simpa [hresumed] using hthird
  have hfailed : failed ∈ first.asked := by rw [hfailed]; exact List.mem_singleton_self _
  have hrefused : refused ∈ second.asked := by rw [hrefused]; exact List.mem_singleton_self _
  have hresumed : resumed ∈ third.asked := by rw [hresumed]; exact List.mem_singleton_self _
  refine ⟨first, second, third, hrun, hchosen, ⟨refused, hrefused, hrefusal, hheld hrefusal⟩,
    failed, hfailed, resumed, hresumed, hresumption, ?_⟩
  exact (List.pairwise_cons.1 hwindows).1 third (by simp) _ hchosen failed hfailed resumed hresumed
    hresumption

end Throttle

end ControlLoop
