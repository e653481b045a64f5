import ControlLoop.Clock

/-!
# Waiting on the clock

A wait without a signal ends at the first millisecond that is not before its
end, and not after thirty years from its start either. A wait that is cut short
by a signal finds the signal set. If no event is due at the very millisecond at
which the wait would have ended by itself, it is then still before its end.
-/

set_option autoImplicit false

namespace ControlLoop

namespace Clock

theorem millisecond_pos : 0 < Duration.millisecond := by decide

/-- A timer has fired just if its instant is not to come. -/
theorem le_now_iff {c : Clock} {i : Instant} : i ≤ c.now ↔ firstMillis i ≤ c.millis := by
  have hround : ∀ unit start stop : Nat, 0 < unit →
      (start + (unit - 1) < stop + unit ↔ start ≤ stop) := by
    intro unit start stop hpos
    omega
  have hfires := hround Duration.millisecond i c.now millisecond_pos
  rw [firstMillis, ← Nat.lt_succ_iff (n := c.millis), Nat.div_lt_iff_lt_mul millisecond_pos,
    Nat.mul_comm, Nat.mul_succ]
  exact hfires.symm

theorem now_lt_iff {c : Clock} {i : Instant} : c.now < i ↔ c.millis < firstMillis i := by
  rw [← Nat.not_le, le_now_iff, Nat.not_le]

theorem now_le_now {c d : Clock} (h : c.millis ≤ d.millis) : c.now ≤ d.now :=
  Nat.mul_le_mul_left _ h

/-- The present instant is a whole millisecond. -/
theorem firstMillis_now (c : Clock) : firstMillis c.now = c.millis := by
  rw [firstMillis, now, Nat.mul_add_div millisecond_pos]
  rfl

/-- The instant at which a time from now counts as over: when it is, if that is less than `2 ^ 63`
seconds from the start, and in thirty years otherwise. -/
inductive EndsAt (c : Clock) (d : Duration) : Instant → Prop where
  | shown (inside : c.now + d < Duration.ofSeconds (Nat.pow 2 63)) : EndsAt c d (c.now + d)
  | beyond (outside : Duration.ofSeconds (Nat.pow 2 63) ≤ c.now + d) :
      EndsAt c d (c.now + Duration.ofSeconds (30 * 365 * 86400))

theorem endsAt_deadline (c : Clock) (d : Duration) : c.EndsAt d (c.deadline d) := by
  rw [deadline]
  split
  · next inside => exact .shown inside
  · next outside => exact .beyond (Nat.le_of_not_lt outside)

/-- A time from now is over no earlier than that, or than in thirty years. -/
theorem le_deadline (c : Clock) (d : Duration) : c.now + min d farFuture ≤ c.deadline d := by
  rw [deadline]
  split
  · exact Nat.add_le_add_left (Nat.min_le_left _ _) _
  · exact Nat.add_le_add_left (Nat.min_le_right _ _) _

theorem now_le_deadline (c : Clock) (d : Duration) : c.now ≤ c.deadline d :=
  Nat.le_trans (Nat.le_add_right _ _) (c.le_deadline d)

/-- Time passes up to the millisecond, whatever the events. -/
theorem millis_passLoop (target millis : Nat) (signals : Signals) (pending : List Event) :
    (passLoop target millis signals pending).millis = max millis target := by
  induction pending generalizing millis signals with
  | nil => rfl
  | cons e rest ih =>
    unfold passLoop
    split
    · rw [ih]; omega
    · rfl

theorem millis_passTo (c : Clock) (target : Nat) : (c.passTo target).millis = max c.millis target :=
  millis_passLoop _ _ _ _

/-- A wait that was not cut short lasted up to its millisecond. -/
theorem millis_of_awaitLoop_false {w : Wakeup} {target millis : Nat} {signals : Signals}
    {pending : List Event} {later : Clock}
    (h : awaitLoop w target millis signals pending = (false, later)) :
    later.millis = max millis target := by
  induction pending generalizing millis signals with
  | nil =>
    unfold awaitLoop at h
    split at h <;> cases h
    rfl
  | cons e rest ih =>
    unfold awaitLoop at h
    split at h
    · cases h
    · split at h
      · rw [ih h]; omega
      · cases h; rfl

/-- A wait that was cut short found the signal set, at its start or at an event that was due in
time. -/
theorem of_awaitLoop_true {w : Wakeup} {target millis : Nat} {signals : Signals}
    {pending : List Event} {later : Clock}
    (h : awaitLoop w target millis signals pending = (true, later)) :
    later.signals.isSet w = true ∧ millis ≤ later.millis ∧
      (later.millis = millis ∨ ∃ e ∈ pending, e.due = later.millis ∧ e.due ≤ target) := by
  induction pending generalizing millis signals with
  | nil =>
    unfold awaitLoop at h
    split at h
    · next hset => cases h; exact ⟨hset, Nat.le_refl _, .inl rfl⟩
    · cases h
  | cons e rest ih =>
    unfold awaitLoop at h
    split at h
    · next hset => cases h; exact ⟨hset, Nat.le_refl _, .inl rfl⟩
    · split at h
      · next hdue =>
        obtain ⟨hset, hle, hat⟩ := ih h
        refine ⟨hset, by omega, ?_⟩
        rcases hat with hfirst | ⟨e', he', hlater⟩
        · -- It ended where the first event left it, which changes the time only if it is not late.
          rcases Nat.le_total e.due millis with hlate | hahead
          · exact .inl (by omega)
          · exact .inr ⟨e, List.mem_cons_self, by omega, hdue⟩
        · exact .inr ⟨e', List.mem_cons_of_mem _ he', hlater⟩
      · cases h

/-- A wait passes events in order, and leaves the others. -/
theorem pending_awaitLoop_suffix (w : Wakeup) (target millis : Nat) (signals : Signals)
    (pending : List Event) : (awaitLoop w target millis signals pending).2.pending <:+ pending := by
  induction pending generalizing millis signals with
  | nil =>
    unfold awaitLoop
    split <;> exact List.suffix_rfl
  | cons e rest ih =>
    unfold awaitLoop
    split
    · exact List.suffix_rfl
    · split
      · exact (ih _ _).trans (List.suffix_cons e rest)
      · exact List.suffix_rfl

/-- A wait that was cut short, though the signal was not set at its start, passed an event. -/
theorem pending_lt_of_awaitLoop_true {w : Wakeup} {target millis : Nat} {signals : Signals}
    {pending : List Event} {later : Clock}
    (h : awaitLoop w target millis signals pending = (true, later))
    (hunset : signals.isSet w = false) : later.pending.length < pending.length := by
  cases pending with
  | nil =>
    rw [awaitLoop, hunset] at h
    cases h
  | cons e rest =>
    rw [awaitLoop, hunset] at h
    split at h
    · next hset => cases hset
    · split at h
      · have hrest := pending_awaitLoop_suffix w target (max millis e.due)
          (signals.actAll e.actions) rest
        rw [h] at hrest
        exact Nat.lt_succ_of_le hrest.length_le
      · cases h

section Sleep

theorem minimum_single (d : Duration) : (DelaySet.single d).minimum = some d := rfl

/-- A delay of zero, or none, is no sleep. -/
theorem sleepOrWait_of_zero {delays : DelaySet} (h : delays.minimum.getD 0 = 0) (c : Clock)
    (wakeup : Option Wakeup) : c.sleepOrWait delays wakeup = (none, c) :=
  if_pos h

theorem sleepOrWait_zero (c : Clock) (wakeup : Option Wakeup) :
    c.sleepOrWait (.single 0) wakeup = (none, c) :=
  sleepOrWait_of_zero rfl c wakeup

/-- What a sleep can come to. -/
inductive SleepGoes (c : Clock) (delays : DelaySet) :
    Option Wakeup → Option Duration × Clock → Prop where
  | skipped {wakeup : Option Wakeup} (zero : delays.minimum.getD 0 = 0) :
      SleepGoes c delays wakeup (none, c)
  | plain (pos : delays.minimum.getD 0 ≠ 0) :
      SleepGoes c delays none (none, c.sleep (delays.minimum.getD 0))
  | interrupted {w : Wakeup} {later : Clock} (pos : delays.minimum.getD 0 ≠ 0)
      (shown : c.await w (delays.minimum.getD 0) = (true, later)) :
      SleepGoes c delays (some w)
        (some (delays.minimum.getD 0 - (later.now - c.now)), later)
  | elapsed {w : Wakeup} {later : Clock} (pos : delays.minimum.getD 0 ≠ 0)
      (unseen : c.await w (delays.minimum.getD 0) = (false, later)) :
      SleepGoes c delays (some w) (none, later)

theorem sleepGoes (c : Clock) (delays : DelaySet) (wakeup : Option Wakeup) :
    c.SleepGoes delays wakeup (c.sleepOrWait delays wakeup) := by
  simp only [sleepOrWait]
  split
  · next hzero => exact .skipped hzero
  · next hpos =>
    split
    · exact .plain hpos
    · split
      · next hawait => exact .interrupted hpos hawait
      · next hawait => exact .elapsed hpos hawait

variable {c later : Clock} {delays : DelaySet} {wakeup : Option Wakeup}

/-- A sleep that was not interrupted lasted for the shortest delay, or for thirty years. -/
theorem le_of_sleepOrWait_none (h : c.sleepOrWait delays wakeup = (none, later)) :
    c.now + min (delays.minimum.getD 0) farFuture ≤ later.now := by
  have hgoes := c.sleepGoes delays wakeup
  rw [h] at hgoes
  cases hgoes with
  | skipped zero =>
    rw [zero, Nat.zero_min]
    exact Nat.le_refl _
  | plain pos =>
    rw [le_now_iff, sleep, millis_passTo]
    exact Nat.le_max_right _ _
  | elapsed pos unseen =>
    have hend : c.now + delays.minimum.getD 0 ≤ later.now := by
      rw [le_now_iff, millis_of_awaitLoop_false unseen]
      exact Nat.le_max_right _ _
    exact Nat.le_trans (Nat.add_le_add_left (Nat.min_le_left _ _) _) hend

/-- A sleep that was interrupted found its signal set. -/
theorem isSet_of_sleepOrWait_some {left : Duration}
    (h : c.sleepOrWait delays wakeup = (some left, later)) :
    ∃ w, wakeup = some w ∧ later.signals.isSet w = true := by
  have hgoes := c.sleepGoes delays wakeup
  rw [h] at hgoes
  cases hgoes with
  | @interrupted w _ pos shown => exact ⟨w, rfl, (of_awaitLoop_true shown).1⟩

/-- A sleep that was interrupted is before its end, unless an event is due at the millisecond of
that. -/
theorem lt_of_sleepOrWait_some {left : Duration}
    (h : c.sleepOrWait delays wakeup = (some left, later))
    (huntied : ∀ e ∈ c.pending, e.due ≠ firstMillis (c.now + delays.minimum.getD 0)) :
    later.now < c.now + delays.minimum.getD 0 := by
  have hgoes := c.sleepGoes delays wakeup
  rw [h] at hgoes
  cases hgoes with
  | interrupted pos shown =>
    obtain ⟨-, -, hat⟩ := of_awaitLoop_true shown
    rcases hat with hstart | ⟨e, he, hdue, hin⟩
    · rw [now, hstart]
      exact Nat.lt_add_of_pos_right (Nat.pos_of_ne_zero pos)
    · rw [now_lt_iff, ← hdue]
      exact Nat.lt_of_le_of_ne hin (huntied e he)

/-- No sleep goes back in time. -/
theorem millis_le_sleepOrWait (c : Clock) (delays : DelaySet) (wakeup : Option Wakeup) :
    c.millis ≤ (c.sleepOrWait delays wakeup).2.millis := by
  have hgoes := c.sleepGoes delays wakeup
  generalize c.sleepOrWait delays wakeup = ended at hgoes
  cases hgoes with
  | skipped zero => exact Nat.le_refl _
  | plain pos =>
    rw [sleep, millis_passTo]
    exact Nat.le_max_left _ _
  | interrupted pos shown => exact (of_awaitLoop_true shown).2.1
  | elapsed pos unseen =>
    rw [millis_of_awaitLoop_false unseen]
    exact Nat.le_max_left _ _

/-- A sleep that only a signal can interrupt lasts to the millisecond for its time, or is
interrupted before that, at the cost of an event unless the signal was set at its start. -/
theorem sleepOrWait_cases (c : Clock) {d : Duration} (w : Wakeup)
    (huntied : ∀ e ∈ c.pending, e.due ≠ firstMillis (c.now + d)) :
    (∃ later, c.sleepOrWait (.single d) (some w) = (none, later) ∧
      later.millis = firstMillis (c.now + d)) ∨
    ∃ left later, c.sleepOrWait (.single d) (some w) = (some left, later) ∧
      later.millis < firstMillis (c.now + d) ∧ later.pending <:+ c.pending ∧
      (c.signals.isSet w = false → later.pending.length < c.pending.length) := by
  have hgoes := c.sleepGoes (.single d) (some w)
  generalize hsleep : c.sleepOrWait (.single d) (some w) = ended at hgoes
  cases hgoes with
  | skipped zero =>
    have hzero : d = 0 := zero
    subst hzero
    exact .inl ⟨c, rfl, (firstMillis_now c).symm⟩
  | @interrupted _ later pos shown =>
    refine .inr ⟨_, later, rfl, ?_, ?_, pending_lt_of_awaitLoop_true shown⟩
    · exact now_lt_iff.1 (lt_of_sleepOrWait_some hsleep huntied)
    · have hloop : awaitLoop w (firstMillis (c.now + d)) c.millis c.signals c.pending =
          (true, later) := shown
      have hsuffix := pending_awaitLoop_suffix w (firstMillis (c.now + d)) c.millis c.signals
        c.pending
      rwa [hloop] at hsuffix
  | @elapsed _ later pos unseen =>
    have hforward : c.millis ≤ firstMillis (c.now + d) := by
      rw [← firstMillis_now c]
      exact Nat.div_le_div_right (Nat.add_le_add_right (Nat.le_add_right _ _) _)
    refine .inl ⟨later, rfl, ?_⟩
    rw [millis_of_awaitLoop_false unseen]
    exact Nat.max_eq_right hforward

end Sleep

section Quiet

/-- The flag is not set, and nothing is to come that could set it. -/
structure Quiet (c : Clock) : Prop where
  unset : c.signals.isSet .flag = false
  pending : c.pending = []

variable {c : Clock}

theorem Quiet.clear (h : c.Quiet) : (c.act .clear).Quiet := ⟨rfl, h.pending⟩

/-- Where nothing sets the flag, no sleep is interrupted by it. -/
theorem Quiet.sleepOrWait (h : c.Quiet) (delays : DelaySet) :
    ∃ later, c.sleepOrWait delays (some .flag) = (none, later) ∧ later.Quiet := by
  have hawait : c.await .flag (delays.minimum.getD 0) = (false,
      ⟨max c.millis (firstMillis (c.now + delays.minimum.getD 0)), c.signals, []⟩) := by
    rw [await, awaitUntil, h.pending, awaitLoop, h.unset]
    rfl
  have hgoes := c.sleepGoes delays (some .flag)
  generalize c.sleepOrWait delays (some .flag) = ended at hgoes
  cases hgoes with
  | skipped zero => exact ⟨c, rfl, h⟩
  | interrupted pos shown =>
    rw [hawait] at shown
    cases shown
  | elapsed pos unseen =>
    rw [hawait] at unseen
    cases unseen
    exact ⟨_, rfl, h.unset, rfl⟩

end Quiet

end Clock

end ControlLoop
