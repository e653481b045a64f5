import ControlLoop.DelaySet
import ControlLoop.Signal

/-!
# The clock

Time passes only while everything waits, and in whole milliseconds: a timer for
an instant fires at the first millisecond that is not before it. Events are due
at milliseconds and act on the signals when time reaches them. Whoever waits for
a signal sees it only as all the actions of an instant leave it. A plain sleep
has a longest duration; a wait for a signal has none.
-/

set_option autoImplicit false

namespace ControlLoop

/-- Actions on the signals that are due at a millisecond. -/
structure Event where
  due : Nat
  actions : List SignalAction
deriving DecidableEq, Repr

/-- The time, the signals and the events still to come, the next one first. -/
structure Clock where
  /-- Milliseconds since the start. -/
  millis : Nat
  signals : Signals
  pending : List Event
deriving DecidableEq, Repr

namespace Clock

/-- A clock at its start. -/
def start : Clock := ⟨0, .quiet, []⟩

/-- The present instant. -/
def now (c : Clock) : Instant := Duration.millisecond * c.millis

/-- The first instant that the clock cannot show. -/
def limit : Instant := Duration.ofSeconds (Nat.pow 2 63)

/-- Thirty years: the longest plain sleep, and how far off an end counts that the clock cannot
show. -/
def farFuture : Duration := Duration.ofSeconds (30 * 365 * 86400)

/-- The instant at which a time from now is over, as far as the clock can show it. -/
def deadline (c : Clock) (d : Duration) : Instant :=
  if c.now + d < limit then c.now + d else c.now + farFuture

/-- The first millisecond that is not before an instant. -/
def firstMillis (i : Instant) : Nat := (i + (Duration.millisecond - 1)) / Duration.millisecond

/-- Places an event among those still to come. -/
def insertEvent (e : Event) : List Event → List Event
  | [] => [e]
  | f :: rest => if e.due < f.due then e :: f :: rest else f :: insertEvent e rest

/-- The clock with one more event to come, some milliseconds from now. -/
def schedule (c : Clock) (after : Nat) (actions : List SignalAction) : Clock :=
  { c with pending := insertEvent ⟨c.millis + after, actions⟩ c.pending }

/-- The clock after an action at once. -/
def act (c : Clock) (action : SignalAction) : Clock := { c with signals := c.signals.act action }

/-- Time passes up to a millisecond, whatever the signals. -/
def passLoop (target : Nat) (millis : Nat) (signals : Signals) : List Event → Clock
  | [] => ⟨max millis target, signals, []⟩
  | e :: rest =>
    if e.due ≤ target then passLoop target (max millis e.due) (signals.actAll e.actions) rest
    else ⟨max millis target, signals, e :: rest⟩

/-- The clock once time has reached a millisecond. -/
def passTo (c : Clock) (target : Nat) : Clock := passLoop target c.millis c.signals c.pending

/-- Time passes up to a millisecond, or until a signal is set; the answer is whether it was. -/
def awaitLoop (w : Wakeup) (target : Nat) (millis : Nat) (signals : Signals) :
    List Event → Bool × Clock
  | [] =>
    if signals.isSet w then (true, ⟨millis, signals, []⟩)
    else (false, ⟨max millis target, signals, []⟩)
  | e :: rest =>
    if signals.isSet w then (true, ⟨millis, signals, e :: rest⟩)
    else if e.due ≤ target then
      awaitLoop w target (max millis e.due) (signals.actAll e.actions) rest
    else (false, ⟨max millis target, signals, e :: rest⟩)

/-- Waits for a signal up to a millisecond. -/
def awaitUntil (c : Clock) (w : Wakeup) (target : Nat) : Bool × Clock :=
  awaitLoop w target c.millis c.signals c.pending

/-- The clock after a sleep, of which none lasts longer than thirty years. -/
def sleep (c : Clock) (d : Duration) : Clock := c.passTo (firstMillis (c.now + min d farFuture))

/-- Waits for a signal for no longer than a time, be it longer than the clock can show; the answer
is whether it was set. -/
def await (c : Clock) (w : Wakeup) (d : Duration) : Bool × Clock :=
  c.awaitUntil w (firstMillis (c.now + d))

/-- Sleeps for the shortest of the delays, or until the signal is set. The answer is the time left
if the sleep was interrupted. A delay of zero, or none, does not even look at the signal. -/
def sleepOrWait (c : Clock) (delays : DelaySet) (wakeup : Option Wakeup) :
    Option Duration × Clock :=
  let d := delays.minimum.getD 0
  if d = 0 then (none, c)
  else
    match wakeup with
    | none => (none, c.sleep d)
    | some w =>
      match c.await w d with
      | (true, later) => (some (d - (later.now - c.now)), later)
      | (false, later) => (none, later)

end Clock

end ControlLoop
