import ControlLoop.Proofs.Throttle.Verdict
import ControlLoop.Proofs.Throttle.Window

/-!
# Streaks of failures

The failures taken in since the last success make up a streak. The first of them
fixes the sequence of delays, whichever delays the later calls are given: each
failure of the streak opens a window of the next delay, and the last delay
repeats. No other call moves the place in the sequence.
-/

set_option autoImplicit false

namespace ControlLoop

namespace Throttle

variable {σ α : Type}

section Streak

/-- A streak after one more call. -/
def grow (streak : List (Record σ α)) (record : Record σ α) : List (Record σ α) :=
  if record.releases then [] else if record.absorbs then streak ++ [record] else streak

/-- The failures taken in since the last success, the first one first. -/
def streak (records : List (Record σ α)) : List (Record σ α) := records.foldl grow []

/-- The delay for the last failure of a streak, among the delays of the first. -/
def streakDelay (streak : List (Record σ α)) : Option Duration :=
  streak.head?.bind fun first =>
    first.call.delays[min streak.length first.call.delays.length - 1]?

end Streak

section Delays

/-- After `k` failures of a streak with the delays `D`, the next one takes the delay that follows,
or the last one again. -/
theorem nextDelay_eq {t : Throttle} {delays D : List Duration} {k : Nat}
    (hsource : t.source.getD delays = D.drop k)
    (hlast : t.lastUsed = if k = 0 then none else D[min k D.length - 1]?) :
    t.nextDelay delays = (D[min (k + 1) D.length - 1]?, D.drop (k + 1)) := by
  rw [nextDelay, hsource]
  by_cases hk : k < D.length
  · have hplace : min (k + 1) D.length - 1 = k := by omega
    rw [List.drop_eq_getElem_cons hk, hplace, List.getElem?_eq_getElem hk]
  · have hover : D.length ≤ k := Nat.le_of_not_lt hk
    have hagain : t.lastUsed = D[min (k + 1) D.length - 1]? := by
      rw [hlast]
      split
      · next hzero =>
        rw [List.eq_nil_of_length_eq_zero (by omega : D.length = 0)]
        rfl
      · have hsame : min (k + 1) D.length = min k D.length := by omega
        rw [hsame]
    rw [List.drop_eq_nil_of_le hover, List.drop_eq_nil_of_le (Nat.le_succ_of_le hover), hagain]

end Delays

section Follows

/-- The throttle is where the streak has left it: its sequence has lost a delay for each failure. -/
structure Follows (streak : List (Record σ α)) (t : Throttle) : Prop where
  source : t.source = streak.head?.map fun first => first.call.delays.drop streak.length
  lastUsed : t.lastUsed = streakDelay streak

theorem follows_idle : Follows ([] : List (Record σ α)) .idle := ⟨rfl, rfl⟩

/-- A failure takes the delay that its place in the streak has, and leaves the next ones. -/
theorem Follows.nextDelay {s : List (Record σ α)} {t : Throttle} (h : Follows s t)
    (record : Record σ α) :
    Follows (s ++ [record]) (⟨t.activeUntil, some (t.nextDelay record.call.delays).2,
      (t.nextDelay record.call.delays).1⟩ : Throttle) ∧
    (t.nextDelay record.call.delays).1 = streakDelay (s ++ [record]) := by
  have hsource := h.source
  have hlast := h.lastUsed
  cases s with
  | nil =>
    have hstart : t.source.getD record.call.delays = record.call.delays.drop 0 := by
      rw [hsource]
      rfl
    rw [nextDelay_eq hstart hlast]
    exact ⟨⟨rfl, rfl⟩, rfl⟩
  | cons first rest =>
    have hplace : t.source.getD record.call.delays =
        first.call.delays.drop (first :: rest).length := by
      rw [hsource]
      rfl
    rw [nextDelay_eq hplace hlast]
    have hlength : (first :: rest ++ [record]).length = (first :: rest).length + 1 := by simp
    have hdelay : streakDelay (first :: rest ++ [record]) = first.call.delays[
        min ((first :: rest).length + 1) first.call.delays.length - 1]? := by
      rw [streakDelay, hlength]
      rfl
    refine ⟨⟨?_, hdelay.symm⟩, hdelay.symm⟩
    rw [hlength]
    rfl

end Follows

section History

/-- A call that is put aside leaves every streak as it was. -/
theorem Record.Verdict.grow_of_aside {record : Record σ α} {told : Bool} {begun done : World σ}
    {answer : Except Error α} (h : record.Verdict told answer)
    (hanswered : record.Answered told begun answer done) (aside : told = false ∨
      ∃ e, answer = .error e ∧ (e.isFatal = true ∨ record.call.errors e = false))
    (s : List (Record σ α)) : grow s record = s := by
  have huncounted := Record.not_counted_of_aside aside
  have hreleases : record.releases ≠ true := fun hreleases =>
    huncounted (((h.releases_iff hanswered).1 hreleases).imp_right .inl)
  have habsorbs : record.absorbs ≠ true := fun habsorbs =>
    huncounted ((h.absorbs_iff.1 habsorbs).imp_right .inr)
  rw [grow, if_neg hreleases, if_neg habsorbs]

/-- A call keeps the throttle where the streak leaves it, and a failure that it takes in takes the
delay of its place in the streak. -/
theorem Follows.record {s : List (Record σ α)} {t : Throttle} (h : Follows s t) (call : Call σ α)
    (world : World σ) :
    Follows (grow s (call.record t world)) (call.record t world).after ∧
      ((call.record t world).absorbs = true →
        (call.record t world).TakesIn (streakDelay (grow s (call.record t world)))) := by
  obtain ⟨told, begun, answer, done, hanswered, hverdict⟩ := call.exists_verdict t world
  cases id hverdict with
  | released value ran outcome source lastUsed =>
    have hgrow : grow s (call.record t world) = [] :=
      if_pos ((hverdict.releases_iff hanswered).2 ⟨ran, _, rfl⟩)
    rw [hgrow]
    refine ⟨⟨source, lastUsed⟩, ?_⟩
    intro habsorbs
    rw [Record.absorbs, outcome] at habsorbs
    cases habsorbs
  | absorbed e ran mild caught outcome takes source =>
    have hgrow : grow s (call.record t world) = s ++ [call.record t world] := by
      simp [grow, Record.releases, Record.absorbs, outcome]
    obtain ⟨hfollows, hdelay⟩ := h.nextDelay (call.record t world)
    rw [hgrow]
    refine ⟨⟨source.trans hfollows.source, takes.remembered.trans hfollows.lastUsed⟩, ?_⟩
    intro _
    rw [← hdelay]
    exact takes
  | passed aside outcome source lastUsed =>
    rw [hverdict.grow_of_aside hanswered aside]
    refine ⟨⟨source.trans h.source, lastUsed.trans h.lastUsed⟩, ?_⟩
    intro habsorbs
    exact absurd ((hverdict.absorbs_iff.1 habsorbs).imp_right .inr)
      (Record.not_counted_of_aside aside)

/-- Each failure that a run takes in takes the delay of its place in the streak. -/
theorem Follows.history {s : List (Record σ α)} {t : Throttle} {world : World σ} (h : Follows s t)
    {moves : List (Move σ α)} {earlier later : List (Record σ α)} {record : Record σ α}
    (hrun : history moves t world = earlier ++ record :: later) (habsorbs : record.absorbs = true) :
    record.TakesIn (streakDelay ((earlier ++ [record]).foldl grow s)) := by
  induction moves generalizing s t world earlier with
  | nil =>
    rw [Throttle.history, eq_comm, List.append_eq_nil_iff] at hrun
    cases hrun.2
  | cons move rest ih =>
    cases move with
    | between move => exact ih h hrun
    | call call =>
      obtain ⟨hfollows, htakes⟩ := h.record call world
      cases earlier with
      | nil =>
        obtain ⟨hfirst, -⟩ := List.cons.inj hrun
        subst hfirst
        exact htakes habsorbs
      | cons first earlier =>
        obtain ⟨hfirst, hrest⟩ := List.cons.inj hrun
        subst hfirst
        exact ih hfollows hrest

/-- Along every run of a throttle that starts idle, the last failure of a streak opens a window of
the delay that its place in the streak has among the delays given with the first failure, and leaves
that delay as the last used; with no such delays it opens none. A call whose operation is told not
to run, or fails with an error that is fatal or of no interest, changes neither the streak nor the
place in the sequence. -/
theorem history_follows_sequence (moves : List (Move σ α)) (world : World σ) :
    (∀ earlier record later, history moves .idle world = earlier ++ record :: later →
      record.absorbs = true → record.TakesIn (streakDelay (streak (earlier ++ [record])))) ∧
    ∀ record ∈ history moves .idle world, ∃ told begun answer done,
      record.Answered told begun answer done ∧
      (record.releases = true ↔ told = true ∧ ∃ value, answer = .ok value) ∧
      (record.absorbs = true ↔ told = true ∧
        ∃ e, answer = .error e ∧ e.isFatal = false ∧ record.call.errors e = true) ∧
      (told = false ∨ (∃ e, answer = .error e ∧ (e.isFatal = true ∨ record.call.errors e = false)) →
        (∀ s, grow s record = s) ∧ record.after.source = record.before.source ∧
          record.after.lastUsed = record.before.lastUsed) := by
  constructor
  · intro earlier record later hrun habsorbs
    exact follows_idle.history hrun habsorbs
  · intro record hrecord
    obtain ⟨call, before, started, rfl⟩ := exists_record_of_mem_history hrecord
    obtain ⟨told, begun, answer, done, hanswered, hverdict⟩ := call.exists_verdict before started
    refine ⟨told, begun, answer, done, hanswered, hverdict.releases_iff hanswered,
      hverdict.absorbs_iff, ?_⟩
    intro aside
    refine ⟨hverdict.grow_of_aside hanswered aside, ?_⟩
    cases hverdict with
    | released value ran =>
      exact absurd ⟨ran, .inl ⟨value, rfl⟩⟩ (Record.not_counted_of_aside aside)
    | absorbed e ran mild caught =>
      exact absurd ⟨ran, .inr ⟨e, rfl, mild, caught⟩⟩ (Record.not_counted_of_aside aside)
    | passed _ _ source lastUsed => exact ⟨source, lastUsed⟩

theorem millis_le_answer (answer : Except Error Unit) (world : World Unit) :
    world.clock.millis ≤
      (((fun world => (answer, world)) : Attempt Unit Unit) world).2.clock.millis :=
  Nat.le_refl _

/-- A call with some delays that the flag interrupts, whose operation does nothing but answer. -/
def answering (delays : List Duration) (answer : Except Error Unit) : Call Unit Unit where
  delays := delays
  wakeup := some .flag
  errors := Error.isThrottleable
  operation := fun _ world => (answer, world)
  forward := fun _ => millis_le_answer answer

/-- Three failures, each call with delays of its own. The flag interrupts the wait after the second
one, and a call in its window and one with a fatal failure come before the last. -/
def outage : List (Move Unit Unit) :=
  [.between (.schedule 2500 [.set]),
    .call (answering [Duration.second, Duration.ofSeconds 2] (.error (.temporary "no answer"))),
    .call (answering [Duration.ofSeconds 5] (.error (.temporary "no answer"))),
    .call (answering [] (.ok ())), .between (.act .clear),
    .call (answering [] (.error (.fatal "corrupt"))),
    .call (answering [] (.error (.temporary "no answer")))]

/-- The second failure takes the second delay of the first one's sequence and the third takes it
again, whatever delays they were given. The success of an operation that is told not to run does not
count, and neither does the fatal failure. The windows last from 0 s to 1 s, from 1 s to 3 s with an
interruption, and from 3 s to 5 s. -/
theorem outage_follows_first_delays : ∃ first second skipped fatal third : Record Unit Unit,
    history outage .idle quietWorld = [first, second, skipped, fatal, third] ∧
    first.TakesIn (some Duration.second) ∧ second.TakesIn (some (Duration.ofSeconds 2)) ∧
    third.TakesIn (some (Duration.ofSeconds 2)) ∧
    (∀ record ∈ [skipped, fatal], grow [first, second] record = [first, second] ∧
      record.after.lastUsed = record.before.lastUsed) ∧
    [first, second, skipped, fatal, third].map
        (fun record => (record.after.activeUntil, record.ended.clock.millis)) =
      [(none, 1000), (some (Duration.ofSeconds 3), 2500), (some (Duration.ofSeconds 3), 2500),
        (none, 3000), (none, 5000)] := by
  obtain ⟨hfollows, hplaces⟩ := history_follows_sequence outage quietWorld
  obtain ⟨first, second, skipped, fatal, third, hrun, habsorbs, hdelays, htold, hanswer, hends⟩ :
      ∃ first second skipped fatal third : Record Unit Unit,
        history outage .idle quietWorld = [first, second, skipped, fatal, third] ∧
        [first, second, third].map Record.absorbs = [true, true, true] ∧
        [[first], [first, second], [first, second, skipped, fatal, third]].map
            (fun records => streakDelay (streak records)) =
          [some Duration.second, some (Duration.ofSeconds 2), some (Duration.ofSeconds 2)] ∧
        skipped.asked.map Asked.shouldRun = [false] ∧
        (∀ told world, fatal.call.operation told world = (.error (.fatal "corrupt"), world)) ∧
        [first, second, skipped, fatal, third].map
            (fun record => (record.after.activeUntil, record.ended.clock.millis)) =
          [(none, 1000), (some (Duration.ofSeconds 3), 2500), (some (Duration.ofSeconds 3), 2500),
            (none, 3000), (none, 5000)] :=
    ⟨_, _, _, _, _, rfl, by decide, by decide, by decide, fun _ _ => rfl, by decide +kernel⟩
  rw [hrun] at hfollows hplaces
  simp only [List.map_cons, List.map_nil, List.cons.injEq, and_true] at habsorbs hdelays
  have hfirst := hfollows [] first [second, skipped, fatal, third] rfl habsorbs.1
  have hsecond := hfollows [first] second [skipped, fatal, third] rfl habsorbs.2.1
  have hthird := hfollows [first, second, skipped, fatal] third [] rfl habsorbs.2.2
  have hskipped : grow [first, second] skipped = [first, second] ∧
      skipped.after.lastUsed = skipped.before.lastUsed := by
    obtain ⟨told, begun, answer, done, hanswered, -, -, haside⟩ := hplaces skipped (by simp)
    rw [hanswered.asked] at htold
    obtain ⟨hgrow, -, hused⟩ := haside (.inl (List.singleton_inj.1 htold))
    exact ⟨hgrow _, hused⟩
  have hfatal : grow [first, second] fatal = [first, second] ∧
      fatal.after.lastUsed = fatal.before.lastUsed := by
    obtain ⟨told, begun, answer, done, hanswered, -, -, haside⟩ := hplaces fatal (by simp)
    have hfailed : answer = .error (.fatal "corrupt") :=
      congrArg Prod.fst (hanswered.answered.symm.trans (hanswer told begun))
    obtain ⟨hgrow, -, hused⟩ := haside (.inr ⟨_, hfailed, .inl rfl⟩)
    exact ⟨hgrow _, hused⟩
  exact ⟨first, second, skipped, fatal, third, hrun, hdelays.1 ▸ hfirst, hdelays.2.1 ▸ hsecond,
    hdelays.2.2 ▸ hthird, List.forall_mem_cons.2 ⟨hskipped, List.forall_mem_singleton.2 hfatal⟩,
    hends⟩

end History

end Throttle

end ControlLoop
