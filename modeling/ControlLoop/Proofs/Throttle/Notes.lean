import ControlLoop.Proofs.Throttle.Verdict
import ControlLoop.Proofs.Throttle.Window

/-!
# Notes about windows

A throttle notes an error when it opens a window, and when a window is over it
notes that. Whatever the operations do and note, and however often a sleep is
interrupted, the two kinds of notes take turns, and the last one of them tells
whether a window is open. What the throttle holds goes together as well: a
window has the delay it was opened with, and no delay was used without a
sequence to take it from.
-/

set_option autoImplicit false

namespace ControlLoop

/-- Whether a note is about a window: that one opened, or that it is over. A failure without a delay
opens no window. -/
def Notice.isAboutWindow : Notice → Bool
  | throttling .. | throttlingOver => true
  | _ => false

namespace Throttle

variable {σ α : Type}

section Tells

/-- The levels of the notes about windows. -/
def windowLevels (notes : List Notice) : List LogLevel :=
  (notes.filter Notice.isAboutWindow).map Notice.level

theorem windowLevels_throttling (delay : Duration) (cause : Error) (rest : List Notice) :
    windowLevels (.throttling delay cause :: rest) = .error :: windowLevels rest := rfl

theorem windowLevels_throttlingOver (rest : List Notice) :
    windowLevels (.throttlingOver :: rest) = .info :: windowLevels rest := rfl

theorem windowLevels_aside {notice : Notice} (aside : notice.isAboutWindow = false)
    (rest : List Notice) : windowLevels (notice :: rest) = windowLevels rest := by
  unfold windowLevels
  rw [List.filter_cons_of_neg (by simp [aside])]

/-- Notes that tell, from whether a window is open before them, whether one is open after them. -/
inductive Tells : Bool → List Notice → Bool → Prop
  | nothing (isOpen : Bool) : Tells isOpen [] isOpen
  | opened {delay : Duration} {cause : Error} {rest : List Notice} {after : Bool}
      (told : Tells true rest after) : Tells false (.throttling delay cause :: rest) after
  | closed {rest : List Notice} {after : Bool} (told : Tells false rest after) :
      Tells true (.throttlingOver :: rest) after
  | other {notice : Notice} {before : Bool} {rest : List Notice} {after : Bool}
      (aside : notice.isAboutWindow = false) (told : Tells before rest after) :
      Tells before (notice :: rest) after

namespace Tells

variable {before between after : Bool} {notes more : List Notice}

theorem append (h : Tells before notes between) (hmore : Tells between more after) :
    Tells before (notes ++ more) after := by
  induction h with
  | nothing => exact hmore
  | opened told ih => exact .opened (ih hmore)
  | closed told ih => exact .closed (ih hmore)
  | other aside told ih => exact .other aside (ih hmore)

/-- The notes about windows take turns. Where none is open, an error comes first. -/
theorem level_eq (h : Tells before notes after) : ∀ i level, (windowLevels notes)[i]? = some level →
    level = if (i + before.toNat) % 2 = 0 then .error else .info := by
  induction h with
  | nothing =>
    intro i level hlevel
    cases hlevel
  | @opened delay cause rest after told ih =>
    intro i level hlevel
    rw [windowLevels_throttling] at hlevel
    cases i with
    | zero => exact (Option.some.inj hlevel).symm
    | succ i =>
      rw [ih i level hlevel]
      have hturn : i + Bool.toNat true = i + 1 + Bool.toNat false := rfl
      rw [hturn]
  | @closed rest after told ih =>
    intro i level hlevel
    rw [windowLevels_throttlingOver] at hlevel
    cases i with
    | zero => exact (Option.some.inj hlevel).symm
    | succ i =>
      rw [ih i level hlevel]
      have hturn : (i + Bool.toNat false) % 2 = (i + 1 + Bool.toNat true) % 2 := by
        simp only [Bool.toNat_true, Bool.toNat_false]
        omega
      rw [hturn]
  | @other notice before rest after aside told ih =>
    rw [windowLevels_aside aside]
    exact ih

/-- The last note about a window tells whether one is open. -/
theorem last_eq (h : Tells before notes after) : after = true ↔
    (windowLevels notes).getLast?.getD (if before then .error else .info) = .error := by
  induction h with
  | nothing isOpen => cases isOpen <;> simp [windowLevels]
  | @opened delay cause rest after told ih =>
    rw [ih, windowLevels_throttling, List.getLast?_cons]
    rfl
  | @closed rest after told ih =>
    rw [ih, windowLevels_throttlingOver, List.getLast?_cons]
    rfl
  | @other notice before rest after aside told ih =>
    rw [windowLevels_aside aside]
    exact ih

end Tells

end Tells

section Parts

variable (t : Throttle) (delays : List Duration) (wakeup : Option Wakeup) (errors : Error → Bool)

/-- A wait notes that the window is over just if it leaves none open. -/
theorem tells_waited (c : Clock) : Tells t.isThrottling (t.waitingNotes wakeup c)
    (t.waited wakeup c).1.isThrottling := by
  have hwaits := t.waits wakeup c
  unfold waitingNotes
  generalize t.waited wakeup c = ended at hwaits
  cases hwaits with
  | idle closed =>
    rw [Bool.and_not_self]
    exact .nothing _
  | interrupted =>
    rw [Bool.and_not_self]
    exact .nothing _
  | slept opened =>
    have hopen : t.isThrottling = true := by rw [isThrottling, opened]; rfl
    rw [hopen]
    exact .closed (.nothing false)

/-- A failure that is taken in is noted as an error about a window just if it opens one. -/
theorem tells_absorbing (c : Clock) (cause : Error) (closed : t.isThrottling = false) :
    Tells false [t.absorbingNote delays cause] (t.absorbing delays c).isThrottling := by
  unfold absorbingNote absorbing
  cases t.nextDelay delays with
  | mk delay rest =>
    cases delay with
    | some delay => exact .opened (.nothing true)
    | none =>
      have hsame : ({ t with source := some rest } : Throttle).isThrottling = false := closed
      rw [hsame]
      exact .other rfl (.nothing false)

/-- What is noted once the operation has answered. -/
def concludingNotes (c : Clock) : Except Error α → List Notice
  | .ok _ => []
  | .error e =>
    if e.isFatal || !errors e || t.isThrottling then []
    else t.absorbingNote delays e :: (t.absorbing delays c).waitingNotes wakeup c

theorem log_waitOut (world : World σ) : (t.waitOut wakeup world).2.log =
    world.log ++ (t.waitingNotes wakeup world.clock).map fun notice => ⟨notice, world.span⟩ := by
  rw [waitOut_apply]
  rfl

theorem log_conclude (answer : Except Error α) (done : World σ) :
    (t.conclude delays wakeup errors (answer, done)).2.log =
      done.log ++ (t.concludingNotes delays wakeup errors done.clock answer).map
        fun notice => ⟨notice, done.span⟩ := by
  cases answer with
  | ok value => exact (List.append_nil _).symm
  | error e =>
    cases hcaught : e.isFatal || !errors e || t.isThrottling with
    | true =>
      rw [conclude_of_refused _ _ hcaught, concludingNotes, if_pos hcaught]
      exact (List.append_nil _).symm
    | false =>
      rw [conclude_of_caught _ _ hcaught, concludingNotes, if_neg (by simp [hcaught])]
      have hwaited := log_waitOut (t.absorbing delays done.clock) wakeup
        (done.noted [t.absorbingNote delays e])
      rw [World.log_noted, List.append_assoc] at hwaited
      exact hwaited

theorem tells_conclude (answer : Except Error α) (done : World σ) :
    Tells t.isThrottling (t.concludingNotes delays wakeup errors done.clock answer)
      (t.conclude delays wakeup errors (answer, done)).1.2.isThrottling := by
  cases answer with
  | ok value =>
    have hsame : (if !t.isThrottling then t.release else t).isThrottling = t.isThrottling := by
      split <;> rfl
    unfold conclude
    rw [hsame]
    exact .nothing _
  | error e =>
    cases hcaught : e.isFatal || !errors e || t.isThrottling with
    | true =>
      rw [conclude_of_refused _ _ hcaught, concludingNotes, if_pos hcaught]
      exact .nothing _
    | false =>
      rw [conclude_of_caught _ _ hcaught, concludingNotes, if_neg (by simp [hcaught])]
      simp only [Bool.or_eq_false_iff] at hcaught
      have habsorbed := tells_absorbing t delays done.clock e hcaught.2
      have hwaited := tells_waited (t.absorbing delays done.clock) wakeup done.clock
      rw [hcaught.2]
      simp only [waitOut_apply]
      exact habsorbed.append hwaited

end Parts

section Call

/-- What a call notes by itself: what the log has gained when its operation is called, and what it
gains once the operation is done. -/
def Call.notes (call : Call σ α) (t : Throttle) (world : World σ) : List Notice :=
  let ended := (t.run call.delays call.wakeup call.errors
    (fun shouldRun => (call.operation shouldRun).recorded fun begun done => (begun.log, done.2.log))
    (world.beside [])).2
  ended.env.seen.flatMap fun (begun, done) =>
    (begun.drop world.log.length ++ ended.log.drop done.length).map LogRecord.notice

/-- What the call of a record noted by itself. -/
def Record.notes (record : Record σ α) : List Notice :=
  record.call.notes record.before record.started

theorem map_notice_map (notes : List Notice) (span : Option Span) :
    (notes.map fun notice => (⟨notice, span⟩ : LogRecord)).map LogRecord.notice = notes := by
  rw [List.map_map]
  exact List.map_id notes

/-- A call notes what its wait and its conclusion do, and its operation may note anything else. -/
theorem Call.notes_eq (call : Call σ α) (t : Throttle) {world begun done : World σ}
    {ready : Throttle} {answer : Except Error α}
    (hwait : t.waitOut call.wakeup world = (ready, begun))
    (hanswer : call.operation (!ready.isThrottling) begun = (answer, done)) :
    call.notes t world = t.waitingNotes call.wakeup world.clock ++
      ready.concludingNotes call.delays call.wakeup call.errors done.clock answer := by
  have hbegun : begun.log = world.log ++
      (t.waitingNotes call.wakeup world.clock).map fun notice => ⟨notice, world.span⟩ := by
    rw [← log_waitOut, hwait]
  have hended := log_conclude ready call.delays call.wakeup call.errors answer done
  have hrun : t.run call.delays call.wakeup call.errors call.operation world =
      ready.conclude call.delays call.wakeup call.errors (answer, done) := by
    simp only [run_apply, hwait, hanswer]
  have hnotes : call.notes t world = (begun.log.drop world.log.length ++
      (ready.conclude call.delays call.wakeup call.errors (answer, done)).2.log.drop
        done.log.length).map LogRecord.notice := by
    unfold Call.notes
    rw [run_recorded, hwait, hrun]
    simp only [hanswer]
    exact List.flatMap_singleton _ _
  rw [hnotes, hbegun, hended, List.drop_left, List.drop_left, List.map_append, map_notice_map,
    map_notice_map]

/-- What a call notes tells whether it leaves a window open. -/
theorem Call.tells (call : Call σ α) (t : Throttle) (world : World σ) :
    Tells t.isThrottling (call.record t world).notes (call.record t world).after.isThrottling := by
  obtain ⟨ready, begun, hwait⟩ : ∃ ready begun, t.waitOut call.wakeup world = (ready, begun) :=
    ⟨_, _, rfl⟩
  obtain ⟨answer, done, hanswer⟩ : ∃ answer done,
      call.operation (!ready.isThrottling) begun = (answer, done) := ⟨_, _, rfl⟩
  have hnotes : (call.record t world).notes = t.waitingNotes call.wakeup world.clock ++
      ready.concludingNotes call.delays call.wakeup call.errors done.clock answer :=
    call.notes_eq t hwait hanswer
  have hready : ready = (t.waited call.wakeup world.clock).1 := by
    rw [waitOut_apply] at hwait
    exact (congrArg Prod.fst hwait).symm
  have hafter : (call.record t world).after =
      (ready.conclude call.delays call.wakeup call.errors (answer, done)).1.2 := by
    simp only [Call.record, Call.make, run_apply, hwait, hanswer]
  have hwaited := tells_waited t call.wakeup world.clock
  rw [← hready] at hwaited
  rw [hnotes, hafter]
  exact hwaited.append (tells_conclude ready call.delays call.wakeup call.errors answer done)

end Call

section Coherent

/-- What a throttle holds goes together: an open window has the delay that it was opened with, and
the last delay is from a sequence. -/
structure Coherent (t : Throttle) : Prop where
  lastUsed : t.isThrottling = true → t.lastUsed.isSome = true
  source : t.lastUsed.isSome = true → t.source.isSome = true

variable {t ready : Throttle}

theorem coherent_idle : Coherent .idle := by
  constructor
  · intro hopen
    cases hopen
  · intro hused
    cases hused

/-- To close the window keeps the rest together. -/
theorem Coherent.waits (h : Coherent t) {wakeup : Option Wakeup} {c : Clock}
    {ended : Throttle × Clock} (hwaits : Waits t wakeup c ended) : Coherent ended.1 := by
  cases hwaits with
  | idle => exact h
  | interrupted => exact h
  | slept =>
    constructor
    · intro hopen
      cases hopen
    · exact h.source

theorem coherent_absorbing (t : Throttle) (delays : List Duration) (c : Clock)
    (closed : t.activeUntil = none) : Coherent (t.absorbing delays c) := by
  rw [absorbing_closed delays c closed]
  constructor
  · intro hopen
    have hdelay : ((t.nextDelay delays).1.map c.deadline).isSome = true := hopen
    rwa [Option.isSome_map] at hdelay
  · intro _
    rfl

theorem release_of_closed (closed : t.isThrottling = false) : t.release = .idle := by
  unfold isThrottling at closed
  have hnone : t.activeUntil = none := by simpa using closed
  unfold release idle
  rw [hnone]

/-- However a call ends, it keeps what the throttle holds together. -/
theorem Coherent.ends (h : Coherent ready) {call : Call σ α} {finish : Clock}
    {outcome : Except Error (Option α)} {ended : Throttle × Clock}
    (hends : call.Ends ready finish outcome ended) : Coherent ended.1 := by
  cases hends with
  | escalated e => exact h
  | absorbed closed hwaits =>
    have hnone : ready.activeUntil = none := by simpa [isThrottling] using closed
    exact (coherent_absorbing ready call.delays finish hnone).waits hwaits
  | succeeded value =>
    cases hready : ready.isThrottling with
    | true => exact h
    | false =>
      have hidle : ready.release = .idle := release_of_closed hready
      rw [Bool.not_false, if_pos rfl, hidle]
      exact coherent_idle

theorem Coherent.record (h : Coherent t) (call : Call σ α) (world : World σ) :
    Coherent (call.record t world).after := by
  obtain ⟨ready, begun, finish, hwaits, -, -, hends⟩ := call.record_cases t world
  exact (h.waits hwaits).ends hends

/-- A success of an operation that was told to run leaves nothing behind. -/
theorem idle_of_releases (call : Call σ α) (t : Throttle) (world : World σ)
    (hreleases : (call.record t world).releases = true) : (call.record t world).after = .idle := by
  obtain ⟨ready, begun, finish, -, -, hasked, hends⟩ := call.record_cases t world
  unfold Record.releases at hreleases
  split at hreleases
  · next value houtcome =>
    rw [hasked] at hreleases
    have closed : ready.isThrottling = false := by simpa using hreleases
    rw [houtcome] at hends
    generalize hended : ((call.record t world).after, (call.record t world).ended.clock) = ended
      at hends
    cases hends with
    | succeeded value =>
      rw [closed, Bool.not_false, if_pos rfl, release_of_closed closed] at hended
      exact congrArg Prod.fst hended
  · cases hreleases

end Coherent

section History

/-- From one call of a run to another, what the calls note tells whether a window is open, and what
the throttle holds goes together. -/
theorem tells_history {moves : List (Move σ α)} {t : Throttle} {world : World σ}
    {earlier later : List (Record σ α)} {record : Record σ α} (h : Coherent t)
    (hrun : history moves t world = earlier ++ record :: later) :
    Tells t.isThrottling ((earlier ++ [record]).flatMap Record.notes) record.after.isThrottling ∧
      Coherent record.after := by
  induction moves generalizing t world earlier with
  | nil =>
    rw [history, eq_comm, List.append_eq_nil_iff] at hrun
    cases hrun.2
  | cons move rest ih =>
    cases move with
    | between move => exact ih h hrun
    | call call =>
      have hcall := call.tells t world
      have hcoherent := h.record call world
      cases earlier with
      | nil =>
        obtain ⟨hfirst, -⟩ := List.cons.inj hrun
        subst hfirst
        rw [List.nil_append, List.flatMap_singleton]
        exact ⟨hcall, hcoherent⟩
      | cons first earlier =>
        obtain ⟨hfirst, hrest⟩ := List.cons.inj hrun
        subst hfirst
        obtain ⟨htells, hafter⟩ := ih hcoherent hrest
        rw [List.cons_append, List.flatMap_cons]
        exact ⟨hcall.append htells, hafter⟩

/-- Along every run of a throttle that starts idle, its notes about windows keep in step with it.
They take turns, an error for an opened window first and then one that it is over. After each call a
window is open just if the last of the notes is an error. An open window comes with a sequence and a
last delay, there is no last delay without a sequence, and after a success of an operation that was
told to run the throttle is idle. -/
theorem history_notes_in_step (moves : List (Move σ α)) (world : World σ) :
    ∀ earlier record later, history moves .idle world = earlier ++ record :: later →
      (∀ i level, (windowLevels ((earlier ++ [record]).flatMap Record.notes))[i]? = some level →
        level = if i % 2 = 0 then .error else .info) ∧
      (record.after.isThrottling = true ↔
        (windowLevels ((earlier ++ [record]).flatMap Record.notes)).getLast? = some .error) ∧
      (record.after.isThrottling = true →
        record.after.source.isSome = true ∧ record.after.lastUsed.isSome = true) ∧
      (record.after.lastUsed.isSome = true → record.after.source.isSome = true) ∧
      (record.releases = true → record.after = .idle) := by
  intro earlier record later hrun
  obtain ⟨htells, hcoherent⟩ := tells_history coherent_idle hrun
  refine ⟨htells.level_eq, ?_, ?_, hcoherent.source, ?_⟩
  · rw [htells.last_eq]
    cases (windowLevels ((earlier ++ [record]).flatMap Record.notes)).getLast? with
    | none => simp [isThrottling, idle]
    | some level => simp
  · intro hopen
    have hused := hcoherent.lastUsed hopen
    exact ⟨hcoherent.source hused, hused⟩
  · intro hreleases
    have hmem : record ∈ history moves .idle world := by rw [hrun]; simp
    obtain ⟨call, before, started, rfl⟩ := exists_record_of_mem_history hmem
    exact idle_of_releases call before started hreleases

/-- The failure of `interruption` is noted as an error, its window is interrupted and then slept out
in the last call, which notes that and succeeds. -/
theorem interruption_notes_in_step : ∃ first second third : Record Unit Unit,
    history interruption .idle quietWorld = [first, second, third] ∧
    first.after.isThrottling = true ∧ second.after.isThrottling = true ∧
    first.after.source.isSome = true ∧ first.after.lastUsed.isSome = true ∧
    windowLevels ([first, second, third].flatMap Record.notes) = [.error, .info] ∧
    third.after = .idle := by
  have hrun := history_notes_in_step interruption quietWorld
  obtain ⟨first, second, third, hhistory, hfirst, hsecond, hthird, hreleases⟩ :
      ∃ first second third : Record Unit Unit,
        history interruption .idle quietWorld = [first, second, third] ∧
        windowLevels ([first].flatMap Record.notes) = [.error] ∧
        windowLevels ([first, second].flatMap Record.notes) = [.error] ∧
        windowLevels ([first, second, third].flatMap Record.notes) = [.error, .info] ∧
        third.releases = true :=
    ⟨_, _, _, rfl, by decide, by decide, by decide, by decide⟩
  obtain ⟨-, hopenFirst, hheld, -, -⟩ := hrun [] first [second, third] hhistory
  obtain ⟨-, hopenSecond, -, -, -⟩ := hrun [first] second [third] hhistory
  obtain ⟨-, -, -, -, hidle⟩ := hrun [first, second] third [] hhistory
  have hopen : first.after.isThrottling = true := hopenFirst.2 (congrArg List.getLast? hfirst)
  obtain ⟨hsource, hused⟩ := hheld hopen
  exact ⟨first, second, third, hhistory, hopen, hopenSecond.2 (congrArg List.getLast? hsecond),
    hsource, hused, hthird, hidle hreleases⟩

end History

end Throttle

end ControlLoop
