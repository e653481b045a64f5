import ControlLoop.Proofs.Clock

/-!
# How a sleep ends

A schedule says which actions on the signals are due at which instants. A sleep
that listens to a signal ends at the first instant at which the signal is set,
and its answer is the time that is left. The signal counts as it is found at the
start, and otherwise as all the actions of an instant leave it. If there is no
such instant in time, the sleep lasts to the first millisecond that is not
before its end. A plain sleep listens to nothing, and the longest one ends after
thirty years. No sleep changes a signal: only the actions do that were due in
the meantime.
-/

set_option autoImplicit false

namespace ControlLoop

theorem Signals.actAll_append (s : Signals) (actions more : List SignalAction) :
    s.actAll (actions ++ more) = (s.actAll actions).actAll more :=
  List.foldl_append

namespace Clock

section Schedule

/-- The events to come are in the order of time, one for each instant, and none is overdue. -/
structure InOrder (c : Clock) : Prop where
  ascending : c.pending.Pairwise fun e f => e.due < f.due
  ahead : ∀ e ∈ c.pending, c.millis ≤ e.due

theorem inOrder_start : start.InOrder := by
  constructor
  · exact .nil
  · intro e he
    cases he

theorem mem_insertEvent {e f : Event} {pending : List Event} :
    f ∈ insertEvent e pending ↔ f = e ∨ f ∈ pending := by
  induction pending with
  | nil => simp [insertEvent]
  | cons g rest ih =>
    rw [insertEvent]
    split
    · exact List.mem_cons
    · rw [List.mem_cons, ih, List.mem_cons, or_left_comm]

/-- An event for an instant of its own goes to its place in time. -/
theorem pairwise_insertEvent {e : Event} {pending : List Event}
    (h : pending.Pairwise fun e f => e.due < f.due) (hfree : ∀ f ∈ pending, f.due ≠ e.due) :
    (insertEvent e pending).Pairwise fun e f => e.due < f.due := by
  induction pending with
  | nil => exact List.pairwise_singleton _ _
  | cons g rest ih =>
    obtain ⟨hg, hrest⟩ := List.pairwise_cons.1 h
    have hge : g.due ≠ e.due := hfree g List.mem_cons_self
    rw [insertEvent]
    split
    · next hbefore =>
      refine List.pairwise_cons.2 ⟨?_, h⟩
      intro f hf
      rcases List.mem_cons.1 hf with rfl | hf
      · exact hbefore
      · exact Nat.lt_trans hbefore (hg f hf)
    · next hnot =>
      have hafter : g.due < e.due := by omega
      refine List.pairwise_cons.2 ⟨?_, ih hrest fun f hf => hfree f (List.mem_cons_of_mem _ hf)⟩
      intro f hf
      rcases mem_insertEvent.1 hf with rfl | hf
      · exact hafter
      · exact hg f hf

variable {c : Clock}

/-- A schedule stays in order if an event is added at an instant that has none. -/
theorem InOrder.schedule (h : c.InOrder) {after : Nat} (actions : List SignalAction)
    (hfree : ∀ e ∈ c.pending, e.due ≠ c.millis + after) : (c.schedule after actions).InOrder := by
  constructor
  · exact pairwise_insertEvent h.ascending hfree
  · intro e he
    rcases mem_insertEvent.1 he with rfl | he
    · exact Nat.le_add_right _ _
    · exact h.ahead e he

theorem InOrder.act (h : c.InOrder) (action : SignalAction) : (c.act action).InOrder :=
  ⟨h.ascending, h.ahead⟩

end Schedule

section Passing

/-- What time makes of a clock: events that are due by then have acted in their order, and nothing
else has changed the signals. -/
structure PassesTo (c later : Clock) : Prop where
  forward : c.millis ≤ later.millis
  acted : ∃ passed, c.pending = passed ++ later.pending ∧
    later.signals = c.signals.actAll (passed.flatMap Event.actions) ∧
    ∀ e ∈ passed, e.due ≤ later.millis
  ahead : ∀ e ∈ later.pending, later.millis ≤ e.due

/-- What is left of a schedule in order is in order. -/
theorem PassesTo.inOrder {c later : Clock} (h : c.PassesTo later) (hc : c.InOrder) :
    later.InOrder := by
  obtain ⟨passed, hpending, -, -⟩ := h.acted
  constructor
  · have hascending := hc.ascending
    rw [hpending, List.pairwise_append] at hascending
    exact hascending.2.1
  · exact h.ahead

theorem passesTo_of_ahead (c : Clock) {millis : Nat} (hforward : c.millis ≤ millis)
    (hahead : ∀ e ∈ c.pending, millis ≤ e.due) : c.PassesTo ⟨millis, c.signals, c.pending⟩ where
  forward := hforward
  acted := ⟨[], rfl, rfl, fun _ he => by cases he⟩
  ahead := hahead

variable {millis target : Nat} {signals : Signals} {e : Event} {rest pending : List Event}

theorem InOrder.next (h : InOrder ⟨millis, signals, e :: rest⟩) :
    InOrder ⟨e.due, signals.actAll e.actions, rest⟩ := by
  obtain ⟨hfirst, hrest⟩ := List.pairwise_cons.1 h.ascending
  constructor
  · exact hrest
  · intro f hf
    exact Nat.le_of_lt (hfirst f hf)

theorem InOrder.max_due (h : InOrder ⟨millis, signals, e :: rest⟩) : max millis e.due = e.due :=
  Nat.max_eq_right (h.ahead e List.mem_cons_self)

/-- What time makes of a clock from its next event on, it makes of the clock. -/
theorem PassesTo.of_next {later : Clock}
    (h : PassesTo ⟨e.due, signals.actAll e.actions, rest⟩ later)
    (hc : InOrder ⟨millis, signals, e :: rest⟩) : PassesTo ⟨millis, signals, e :: rest⟩ later := by
  obtain ⟨passed, hpending, hsignals, hdue⟩ := h.acted
  have hnext : e.due ≤ later.millis := h.forward
  refine ⟨Nat.le_trans (hc.ahead e List.mem_cons_self) hnext, ⟨e :: passed, ?_, ?_, ?_⟩, h.ahead⟩
  · exact congrArg (e :: ·) hpending
  · rw [List.flatMap_cons, Signals.actAll_append]
    exact hsignals
  · intro f hf
    rcases List.mem_cons.1 hf with rfl | hf
    · exact hnext
    · exact hdue f hf

/-- A schedule in order whose next event is not due by a millisecond has no event due by it. -/
theorem InOrder.ahead_of_lt (h : InOrder ⟨millis, signals, e :: rest⟩) (hlate : target < e.due) :
    ∀ f ∈ e :: rest, max millis target ≤ f.due := by
  intro f hf
  have hstart : millis ≤ f.due := h.ahead f hf
  rcases List.mem_cons.1 hf with rfl | hrest
  · omega
  · have hfirst := (List.pairwise_cons.1 h.ascending).1 f hrest
    omega

theorem InOrder.passesTo_passLoop (h : InOrder ⟨millis, signals, pending⟩) (target : Nat) :
    PassesTo ⟨millis, signals, pending⟩ (passLoop target millis signals pending) := by
  induction pending generalizing millis signals with
  | nil =>
    exact passesTo_of_ahead ⟨millis, signals, []⟩ (Nat.le_max_left _ _) fun _ he => by cases he
  | cons e rest ih =>
    rw [passLoop]
    split
    · rw [h.max_due]
      exact (ih h.next).of_next h
    · next hlate =>
      exact passesTo_of_ahead ⟨millis, signals, e :: rest⟩ (Nat.le_max_left _ _)
        (h.ahead_of_lt (Nat.lt_of_not_le hlate))

theorem InOrder.passesTo_awaitLoop (h : InOrder ⟨millis, signals, pending⟩) (w : Wakeup)
    (target : Nat) :
    PassesTo ⟨millis, signals, pending⟩ (awaitLoop w target millis signals pending).2 := by
  induction pending generalizing millis signals with
  | nil =>
    rw [awaitLoop]
    split
    · exact passesTo_of_ahead ⟨millis, signals, []⟩ (Nat.le_refl _) h.ahead
    · exact passesTo_of_ahead ⟨millis, signals, []⟩ (Nat.le_max_left _ _) fun _ he => by cases he
  | cons e rest ih =>
    rw [awaitLoop]
    split
    · exact passesTo_of_ahead ⟨millis, signals, e :: rest⟩ (Nat.le_refl _) h.ahead
    · split
      · rw [h.max_due]
        exact (ih h.next).of_next h
      · next hlate =>
        exact passesTo_of_ahead ⟨millis, signals, e :: rest⟩ (Nat.le_max_left _ _)
          (h.ahead_of_lt (Nat.lt_of_not_le hlate))

/-- Every sleep leaves what time makes of the clock. -/
theorem InOrder.passesTo_sleepOrWait {c : Clock} (h : c.InOrder) (delays : DelaySet)
    (wakeup : Option Wakeup) : c.PassesTo (c.sleepOrWait delays wakeup).2 := by
  have hgoes := c.sleepGoes delays wakeup
  generalize c.sleepOrWait delays wakeup = ended at hgoes
  cases hgoes with
  | skipped zero => exact passesTo_of_ahead c (Nat.le_refl _) h.ahead
  | plain pos => exact InOrder.passesTo_passLoop h _
  | @interrupted w later pos shown =>
    have hpasses : c.PassesTo (c.await w (delays.minimum.getD 0)).2 :=
      InOrder.passesTo_awaitLoop h w _
    rwa [shown] at hpasses
  | @elapsed w later pos unseen =>
    have hpasses : c.PassesTo (c.await w (delays.minimum.getD 0)).2 :=
      InOrder.passesTo_awaitLoop h w _
    rwa [unseen] at hpasses

/-- A schedule stays in order while somebody sleeps. -/
theorem InOrder.sleepOrWait {c : Clock} (h : c.InOrder) (delays : DelaySet)
    (wakeup : Option Wakeup) : (c.sleepOrWait delays wakeup).2.InOrder :=
  (h.passesTo_sleepOrWait delays wakeup).inOrder h

end Passing

section Showing

/-- The signals as all the actions up to an instant leave them. -/
def signalsAt (c : Clock) (instant : Nat) : Signals :=
  c.signals.actAll ((c.pending.filter fun e => e.due ≤ instant).flatMap Event.actions)

/-- At an instant from now on a signal is set: as all the actions up to it leave the signal, or, if
the instant is the present one, as the signal is found. -/
def ShowsAt (c : Clock) (w : Wakeup) (instant : Nat) : Prop :=
  c.millis ≤ instant ∧
    (instant = c.millis ∧ c.signals.isSet w = true ∨ (c.signalsAt instant).isSet w = true)

instance (c : Clock) (w : Wakeup) (instant : Nat) : Decidable (c.ShowsAt w instant) :=
  inferInstanceAs (Decidable (_ ∧ _))

/-- The first instant at which a signal is set. -/
structure FirstShown (c : Clock) (w : Wakeup) (instant : Nat) : Prop where
  shown : c.ShowsAt w instant
  first : ∀ earlier < instant, ¬ c.ShowsAt w earlier

theorem FirstShown.eq {c : Clock} {w : Wakeup} {instant other : Nat}
    (h : c.FirstShown w instant) (hother : c.FirstShown w other) : instant = other := by
  apply Nat.le_antisymm
  · exact Nat.le_of_not_lt fun hlt => h.first other hlt hother.shown
  · exact Nat.le_of_not_lt fun hlt => hother.first instant hlt h.shown

theorem signalsAt_of_ahead {c : Clock} {instant : Nat} (h : ∀ e ∈ c.pending, instant < e.due) :
    c.signalsAt instant = c.signals := by
  have hnone : (c.pending.filter fun e => e.due ≤ instant) = [] := by
    rw [List.filter_eq_nil_iff]
    intro e he
    have hdue := h e he
    simp only [decide_eq_true_eq]
    omega
  rw [signalsAt, hnone]
  rfl

variable {w : Wakeup} {millis target instant : Nat} {signals : Signals} {e : Event}
  {rest pending : List Event}

theorem firstShown_of_isSet (h : signals.isSet w = true) :
    FirstShown ⟨millis, signals, pending⟩ w millis := by
  constructor
  · exact ⟨Nat.le_refl millis, Or.inl ⟨rfl, h⟩⟩
  · rintro earlier hearlier ⟨hle, -⟩
    exact Nat.not_le_of_lt hearlier hle

/-- A signal that is not set now is not set before the next event. -/
theorem not_showsAt_of_ahead (hunset : signals.isSet w = false)
    (h : ∀ e ∈ pending, instant < e.due) : ¬ ShowsAt ⟨millis, signals, pending⟩ w instant := by
  have hsame : signalsAt ⟨millis, signals, pending⟩ instant = signals := signalsAt_of_ahead h
  rintro ⟨-, ⟨-, hset⟩ | hset⟩
  · rw [hunset] at hset
    cases hset
  · rw [hsame, hunset] at hset
    cases hset

theorem signalsAt_next (h : e.due ≤ instant) : signalsAt ⟨millis, signals, e :: rest⟩ instant =
    signalsAt ⟨e.due, signals.actAll e.actions, rest⟩ instant := by
  have hfilter : ((e :: rest).filter fun f => f.due ≤ instant) =
      e :: rest.filter fun f => f.due ≤ instant := List.filter_cons_of_pos (decide_eq_true h)
  simp only [signalsAt, hfilter]
  rw [List.flatMap_cons, Signals.actAll_append]

/-- A signal that is not set now is set at the same instants from the next event on. -/
theorem InOrder.showsAt_next (h : InOrder ⟨millis, signals, e :: rest⟩)
    (hunset : signals.isSet w = false) : ShowsAt ⟨millis, signals, e :: rest⟩ w instant ↔
      ShowsAt ⟨e.due, signals.actAll e.actions, rest⟩ w instant := by
  have hrest := (List.pairwise_cons.1 h.ascending).1
  by_cases hdue : e.due ≤ instant
  · have hsame : signalsAt ⟨millis, signals, e :: rest⟩ instant = _ := signalsAt_next hdue
    constructor
    · rintro ⟨-, ⟨-, hset⟩ | hset⟩
      · rw [hunset] at hset
        cases hset
      · rw [hsame] at hset
        exact ⟨hdue, Or.inr hset⟩
    · have hstart : millis ≤ instant := Nat.le_trans (h.ahead e List.mem_cons_self) hdue
      rintro ⟨-, ⟨hat, hset⟩ | hset⟩
      · -- At the instant of the event only its own actions are done.
        have honly : signalsAt ⟨e.due, signals.actAll e.actions, rest⟩ instant =
            signals.actAll e.actions := by
          apply signalsAt_of_ahead
          intro f hf
          rw [hat]
          exact hrest f hf
        refine ⟨hstart, Or.inr ?_⟩
        rw [hsame, honly]
        exact hset
      · refine ⟨hstart, Or.inr ?_⟩
        rw [hsame]
        exact hset
  · have hbefore : instant < e.due := Nat.lt_of_not_le hdue
    constructor
    · intro hshows
      refine absurd hshows (not_showsAt_of_ahead hunset ?_)
      intro f hf
      rcases List.mem_cons.1 hf with rfl | hf
      · exact hbefore
      · exact Nat.lt_trans hbefore (hrest f hf)
    · rintro ⟨hle, -⟩
      exact absurd hle hdue

/-- How a wait for a signal up to a millisecond ends. -/
inductive WaitEnds (c : Clock) (w : Wakeup) (target : Nat) : Bool × Clock → Prop where
  | shown {later : Clock} (first : c.FirstShown w later.millis) (before : later.millis < target) :
      WaitEnds c w target (true, later)
  | elapsed {later : Clock} (unseen : ∀ instant < target, ¬ c.ShowsAt w instant)
      (on_time : later.millis = target) : WaitEnds c w target (false, later)

theorem WaitEnds.of_next {ended : Bool × Clock}
    (h : WaitEnds ⟨e.due, signals.actAll e.actions, rest⟩ w target ended)
    (hc : InOrder ⟨millis, signals, e :: rest⟩) (hunset : signals.isSet w = false) :
    WaitEnds ⟨millis, signals, e :: rest⟩ w target ended := by
  cases h with
  | shown first before =>
    refine .shown ⟨(hc.showsAt_next hunset).2 first.shown, ?_⟩ before
    intro earlier hearlier hshows
    exact first.first earlier hearlier ((hc.showsAt_next hunset).1 hshows)
  | elapsed unseen on_time =>
    refine .elapsed ?_ on_time
    intro instant hinstant hshows
    exact unseen instant hinstant ((hc.showsAt_next hunset).1 hshows)

/-- A wait ends at the first instant at which the signal is set, or on time. -/
theorem InOrder.waitEnds (h : InOrder ⟨millis, signals, pending⟩) (hbefore : millis < target)
    (huntied : ∀ e ∈ pending, e.due ≠ target) (w : Wakeup) :
    WaitEnds ⟨millis, signals, pending⟩ w target (awaitLoop w target millis signals pending) := by
  have hmax : max millis target = target := Nat.max_eq_right (Nat.le_of_lt hbefore)
  induction pending generalizing millis signals with
  | nil =>
    rw [awaitLoop]
    split
    · next hset => exact .shown (firstShown_of_isSet hset) hbefore
    · next hunset =>
      refine .elapsed (fun instant _ => ?_) hmax
      exact not_showsAt_of_ahead (Bool.eq_false_iff.2 hunset) fun _ he => by cases he
  | cons e rest ih =>
    rw [awaitLoop]
    split
    · next hset => exact .shown (firstShown_of_isSet hset) hbefore
    · next hunset =>
      have hunset := Bool.eq_false_iff.2 hunset
      have htie : e.due ≠ target := huntied e List.mem_cons_self
      split
      · next hdue =>
        have hnext : e.due < target := Nat.lt_of_le_of_ne hdue htie
        rw [h.max_due]
        refine (ih h.next hnext ?_ (Nat.max_eq_right hdue)).of_next h hunset
        intro f hf
        exact huntied f (List.mem_cons_of_mem _ hf)
      · next hlate =>
        refine .elapsed (fun instant hinstant => not_showsAt_of_ahead hunset ?_) hmax
        intro f hf
        have hahead := h.ahead_of_lt (Nat.lt_of_not_le hlate) f hf
        omega

end Showing

section Sleeping

/-- How long a sleep lasts that no signal ends: a plain one has a longest time. -/
def lasting (delay : Duration) : Option Wakeup → Duration
  | none => min delay farFuture
  | some _ => delay

/-- The millisecond at which a sleep is over that no signal ends. -/
def sleepEnd (c : Clock) (delay : Duration) (wakeup : Option Wakeup) : Nat :=
  firstMillis (c.now + lasting delay wakeup)

variable {c : Clock} {delays : DelaySet} {d : Duration} {wakeup : Option Wakeup} {w : Wakeup}

theorem lasting_pos (hpos : d ≠ 0) (wakeup : Option Wakeup) : 0 < lasting d wakeup := by
  have hd : 0 < d := Nat.pos_of_ne_zero hpos
  cases wakeup with
  | none => exact Nat.lt_min.2 ⟨hd, by decide⟩
  | some w => exact hd

theorem lt_sleepEnd (hpos : d ≠ 0) (wakeup : Option Wakeup) : c.millis < c.sleepEnd d wakeup :=
  now_lt_iff.1 (Nat.lt_add_of_pos_right (lasting_pos hpos wakeup))

/-- In thirty years the time is a whole millisecond again. -/
theorem now_add_farFuture (c : Clock) : c.now + farFuture =
    Clock.now ⟨c.millis + 946080000000, c.signals, c.pending⟩ := by
  rw [now, now, Nat.mul_add]
  rfl

/-- A sleep lasts for its delay, unless it is a plain one for more than thirty years. -/
theorem sleepEnd_eq_iff : c.sleepEnd d wakeup = firstMillis (c.now + d) ↔
    (wakeup = none → d ≤ farFuture) := by
  cases wakeup with
  | some w =>
    constructor
    · intro _ hnone
      cases hnone
    · intro _
      rfl
  | none =>
    rw [sleepEnd, lasting]
    constructor
    · intro hend _
      apply Nat.le_of_not_lt
      intro hlong
      -- A clock in thirty years would still be before the end of the delay.
      have hlt : c.now + farFuture < c.now + d := Nat.add_lt_add_left hlong _
      rw [Nat.min_eq_right (Nat.le_of_lt hlong), now_add_farFuture, firstMillis_now] at hend
      rw [now_add_farFuture, now_lt_iff, ← hend] at hlt
      exact Nat.lt_irrefl _ hlt
    · intro hshort
      rw [Nat.min_eq_left (hshort rfl)]

/-- How a sleep for a delay that is not zero ends. -/
inductive SleepEnds (c : Clock) (d : Duration) (wakeup : Option Wakeup) :
    Option Duration × Clock → Prop where
  | interrupted {w : Wakeup} {later : Clock} (listens : wakeup = some w)
      (first : c.FirstShown w later.millis) (before : later.millis < c.sleepEnd d wakeup) :
      SleepEnds c d wakeup (some (d - Duration.millisecond * (later.millis - c.millis)), later)
  | elapsed {later : Clock} (unseen : ∀ w, wakeup = some w →
      ∀ instant < c.sleepEnd d wakeup, ¬ c.ShowsAt w instant)
      (on_time : later.millis = c.sleepEnd d wakeup) : SleepEnds c d wakeup (none, later)

theorem InOrder.sleepEnds (hc : c.InOrder) (hpos : delays.minimum.getD 0 ≠ 0)
    (huntied : ∀ e ∈ c.pending, e.due ≠ c.sleepEnd (delays.minimum.getD 0) wakeup) :
    c.SleepEnds (delays.minimum.getD 0) wakeup (c.sleepOrWait delays wakeup) := by
  have hbefore : c.millis < c.sleepEnd (delays.minimum.getD 0) wakeup := lt_sleepEnd hpos wakeup
  have hgoes := c.sleepGoes delays wakeup
  generalize c.sleepOrWait delays wakeup = ended at hgoes
  cases hgoes with
  | skipped zero => exact absurd zero hpos
  | plain pos =>
    refine .elapsed (fun w hw => by cases hw) ?_
    rw [sleep, millis_passTo]
    exact Nat.max_eq_right (Nat.le_of_lt hbefore)
  | @interrupted w later pos shown =>
    have hends : c.WaitEnds w _ (c.await w (delays.minimum.getD 0)) :=
      InOrder.waitEnds hc hbefore huntied w
    rw [shown] at hends
    cases hends with
    | shown first before =>
      rw [now, now, ← Nat.mul_sub]
      exact .interrupted rfl first before
  | @elapsed w later pos unseen =>
    have hends : c.WaitEnds w _ (c.await w (delays.minimum.getD 0)) :=
      InOrder.waitEnds hc hbefore huntied w
    rw [unseen] at hends
    cases hends with
    | elapsed unseen on_time =>
      refine .elapsed (fun w' hw => ?_) on_time
      cases hw
      exact unseen

/-- A delay of zero, or none, returns at once. Any other sleep ends at the first instant before its
end at which its signal is set, with the time that is left, and if there is none, at the first
millisecond that is not before its end. No sleep changes its signal. A sleep is over when its delay
is, unless it is a plain one for more than thirty years. -/
theorem sleep_ends_on_time {c later : Clock} {delays : DelaySet} {d : Duration}
    {wakeup : Option Wakeup} {left : Option Duration} (hc : c.InOrder)
    (hd : delays.minimum.getD 0 = d) (h : c.sleepOrWait delays wakeup = (left, later)) :
    (d = 0 → left = none ∧ later = c) ∧
    (d ≠ 0 → (∀ e ∈ c.pending, e.due ≠ c.sleepEnd d wakeup) →
      (∀ w instant, wakeup = some w → c.FirstShown w instant → instant < c.sleepEnd d wakeup →
        left = some (d - Duration.millisecond * (instant - c.millis)) ∧ later.millis = instant) ∧
      ((∀ w, wakeup = some w → ∀ instant < c.sleepEnd d wakeup, ¬ c.ShowsAt w instant) →
        left = none ∧ later.millis = c.sleepEnd d wakeup)) ∧
    c.PassesTo later ∧
    (c.sleepEnd d wakeup = firstMillis (c.now + d) ↔ (wakeup = none → d ≤ farFuture)) := by
  refine ⟨?_, ?_, ?_, sleepEnd_eq_iff⟩
  · intro hzero
    rw [sleepOrWait_of_zero (hd.trans hzero)] at h
    cases h
    exact ⟨rfl, rfl⟩
  · intro hpos huntied
    subst hd
    have hends := hc.sleepEnds hpos huntied
    rw [h] at hends
    constructor
    · intro w instant hw hfirst hbefore
      cases hends with
      | interrupted listens first before =>
        rw [hw] at listens
        cases listens
        rw [hfirst.eq first]
        exact ⟨rfl, rfl⟩
      | elapsed unseen on_time => exact absurd hfirst.shown (unseen w hw instant hbefore)
    · intro hunseen
      cases hends with
      | interrupted listens first before =>
        exact absurd first.shown (hunseen _ listens _ before)
      | elapsed unseen on_time => exact ⟨rfl, on_time⟩
  · have hpasses := hc.passesTo_sleepOrWait delays wakeup
    rwa [h] at hpasses

/-- A flag that blinks: set and cleared at two milliseconds, set at five, cleared at nine. -/
def blinking : Clock :=
  ((start.schedule 2 [.set, .clear]).schedule 5 [.set]).schedule 9 [.clear]

theorem inOrder_blinking : blinking.InOrder :=
  ((inOrder_start.schedule _ (by decide)).schedule _ (by decide)).schedule _ (by decide)

/-- Who sleeps for ten and a half milliseconds and listens to the flag is woken at five, and has as
much left as that leaves. Who does not listen sleeps through to the eleventh. -/
theorem blinking_ends_on_time :
    (∃ left later, blinking.sleepOrWait (.single 10500000) (some .flag) = (left, later) ∧
      left = some 5500000 ∧ later.millis = 5) ∧
    ∃ left later, blinking.sleepOrWait (.single 10500000) none = (left, later) ∧
      left = none ∧ later.millis = 11 := by
  have hdelay : (DelaySet.single 10500000).minimum.getD 0 = 10500000 := rfl
  constructor
  · obtain ⟨⟨left, later⟩, hsleep⟩ : ∃ ended,
        blinking.sleepOrWait (.single 10500000) (some .flag) = ended := ⟨_, rfl⟩
    have hfirst : blinking.FirstShown .flag 5 := ⟨by decide, by decide⟩
    obtain ⟨hshown, -⟩ :=
      (sleep_ends_on_time inOrder_blinking hdelay hsleep).2.1 (by decide) (by decide)
    exact ⟨left, later, hsleep, hshown .flag 5 rfl hfirst (by decide)⟩
  · obtain ⟨⟨left, later⟩, hsleep⟩ : ∃ ended,
        blinking.sleepOrWait (.single 10500000) none = ended := ⟨_, rfl⟩
    obtain ⟨-, hover⟩ :=
      (sleep_ends_on_time inOrder_blinking hdelay hsleep).2.1 (by decide) (by decide)
    exact ⟨left, later, hsleep, hover fun w hw => by cases hw⟩

/-- A plain sleep for forty years, which the clock can show, is over after thirty. -/
theorem fortyYears_over_early : start.InOrder ∧
    start.now + Duration.ofSeconds 1261440000 < limit ∧
    firstMillis (start.now + Duration.ofSeconds 1261440000) = 1261440000000 ∧
    start.sleepOrWait (.single (Duration.ofSeconds 1261440000)) none =
      (none, ⟨946080000000, .quiet, []⟩) :=
  ⟨inOrder_start, by decide, by decide, by decide⟩

end Sleeping

end Clock

end ControlLoop
