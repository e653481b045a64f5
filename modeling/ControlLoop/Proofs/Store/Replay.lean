import ControlLoop.Store

/-!
# The store as the replay of its log

Writes, deletions and changes of the failing mode reach a store in any order.
The log holds the patches of just those writes that answered with a body, and
until the object is deleted its body is what these patches make of the first
one: merged in the order of the log, and collapsed each time. Any other write
changes nothing, and what is deleted stays deleted.
-/

set_option autoImplicit false

namespace ControlLoop

namespace Store

/-- What can be done to a store. -/
inductive Operation where
  | write (patch : Patch)
  | delete
  | setFailing (reason : Option String)

/-- Does an operation. Only a write has an answer. -/
def Operation.apply : Operation → Store → Option (Except Error (Option Body)) × Store
  | write patch, store => (some (store.patch patch).1, (store.patch patch).2)
  | delete, store => (none, store.delete)
  | setFailing reason, store => (none, store.setFailing reason)

/-- An operation that was done. -/
structure Record where
  operation : Operation
  before : Store
  answer : Option (Except Error (Option Body))
  after : Store

/-- The record of an operation. -/
def Operation.record (operation : Operation) (store : Store) : Record where
  operation := operation
  before := store
  answer := (operation.apply store).1
  after := (operation.apply store).2

/-- The records of operations, done one after the other. -/
def history : List Operation → Store → List Record
  | [], _ => []
  | operation :: rest, store =>
    operation.record store :: history rest (operation.record store).after

/-- The store once the operations were done. -/
def run (operations : List Operation) (store : Store) : Store :=
  operations.foldl (fun store operation => (operation.apply store).2) store

/-- The patch of a write that answered with a body. -/
def Record.written? (record : Record) : Option Patch :=
  match record.operation, record.answer with
  | .write patch, some (.ok (some _)) => some patch
  | _, _ => none

/-- What patches make of a value: they are merged one after the other, and each time the collapsing
fields are collapsed. -/
def replay (collapsing : List FieldPath) (value : Json) (patches : List Patch) : Json :=
  patches.foldl (fun value patch => collapse collapsing (value.merge patch.toJson)) value

theorem replay_concat (collapsing : List FieldPath) (value : Json) (patches : List Patch)
    (patch : Patch) : replay collapsing value (patches ++ [patch]) =
      collapse collapsing ((replay collapsing value patches).merge patch.toJson) := by
  unfold replay
  rw [List.foldl_append]
  rfl

section Step

variable (store : Store)

/-- The ways in which an operation goes. -/
inductive Goes : Operation → Option (Except Error (Option Body)) × Store → Prop where
  /-- A write is refused. -/
  | refused {patch : Patch} {reason : String} (failing : store.failing = some reason) :
      Goes (.write patch) (some (.error (.patch reason)), store)
  /-- There is no object to write to. -/
  | gone {patch : Patch} (deleted : store.object = none) :
      Goes (.write patch) (some (.ok none), store)
  /-- A patch is written. -/
  | written {patch : Patch} {body result : Body} (present : store.object = some body)
      (merged : result = collapse store.collapsing (body.merge patch.toJson)) :
      Goes (.write patch) (some (.ok (some result)),
        { store with object := some result, writes := store.writes ++ [patch] })
  | deleted : Goes .delete (none, store.delete)
  | switched (reason : Option String) : Goes (.setFailing reason) (none, store.setFailing reason)

theorem goes (operation : Operation) : store.Goes operation (operation.apply store) := by
  cases operation with
  | delete => exact .deleted
  | setFailing reason => exact .switched reason
  | write patch =>
    simp only [Operation.apply, Store.patch]
    split
    · next hfailing => exact .refused hfailing
    · next hobject => exact .gone hobject
    · next hobject => exact .written hobject rfl

end Step

section Replays

/-- The object, if there is one, is what the log makes of a body. -/
structure Replays (body : Body) (collapsing : List FieldPath) (store : Store) : Prop where
  fields : store.collapsing = collapsing
  object : ∀ held, store.object = some held → held = replay collapsing body store.writes

variable {body : Body} {collapsing : List FieldPath} {store : Store}

theorem replays_ofBody (body : Body) (collapsing : List FieldPath) :
    Replays body collapsing (ofBody body collapsing) := by
  constructor
  · rfl
  · intro held hheld
    exact (Option.some.inj hheld).symm

/-- A patch that is merged and collapsed into the object, and added to the log, is one more patch of
the replay. -/
theorem Replays.write (h : Replays body collapsing store) {held result : Body} {patch : Patch}
    (present : store.object = some held)
    (merged : result = collapse store.collapsing (held.merge patch.toJson)) :
    result = replay collapsing body (store.writes ++ [patch]) := by
  rw [replay_concat, ← h.object held present, ← h.fields]
  exact merged

theorem Replays.apply (h : Replays body collapsing store) (operation : Operation) :
    Replays body collapsing (operation.apply store).2 := by
  have hgoes := store.goes operation
  generalize operation.apply store = ended at hgoes
  cases hgoes with
  | refused => exact h
  | gone => exact h
  | switched => exact ⟨h.fields, h.object⟩
  | deleted =>
    refine ⟨h.fields, ?_⟩
    intro held hheld
    cases hheld
  | written present merged =>
    refine ⟨h.fields, ?_⟩
    intro held hheld
    obtain rfl := Option.some.inj hheld
    exact h.write present merged

end Replays

section Records

variable {body : Body} {collapsing : List FieldPath} {store : Store}

/-- What a record says of the object and of the log. -/
structure Record.Sound (record : Record) (body : Body) (collapsing : List FieldPath) : Prop where
  /-- A write that answers with a body adds its patch to the log, and the body is the object after
  that. -/
  written : ∀ patch result, record.operation = .write patch →
    record.answer = some (.ok (some result)) →
      record.after.writes = record.before.writes ++ [patch] ∧
      record.after.object = some result ∧ result = replay collapsing body record.after.writes
  /-- A write that answers with nothing changes nothing. -/
  gone : record.answer = some (.ok none) → record.after = record.before
  /-- A write that fails changes nothing. -/
  refused : ∀ e, record.answer = some (.error e) → record.after = record.before

theorem Replays.sound (h : Replays body collapsing store) (operation : Operation) :
    (operation.record store).Sound body collapsing := by
  have hgoes := store.goes operation
  unfold Operation.record
  generalize operation.apply store = ended at hgoes
  constructor
  · intro patch result hoperation hanswer
    cases hgoes with
    | refused => cases hanswer
    | gone => cases hanswer
    | deleted => cases hanswer
    | switched => cases hanswer
    | written present merged =>
      cases hoperation
      cases hanswer
      exact ⟨rfl, rfl, h.write present merged⟩
  · intro hanswer
    cases hgoes with
    | gone => rfl
    | _ => cases hanswer
  · intro e hanswer
    cases hgoes with
    | refused => rfl
    | _ => cases hanswer

/-- The log grows by the patch of a write that answered with a body, and by nothing else. -/
theorem writes_record (operation : Operation) : (operation.record store).after.writes =
    store.writes ++ (operation.record store).written?.toList := by
  have hgoes := store.goes operation
  unfold Operation.record
  generalize operation.apply store = ended at hgoes
  cases hgoes with
  | written => rfl
  | _ => exact (List.append_nil _).symm

/-- Without an object nothing is written, and no operation brings one back. -/
theorem gone_apply (h : store.object = none) (operation : Operation) :
    (operation.apply store).2.object = none ∧
      (operation.apply store).2.writes = store.writes := by
  have hgoes := store.goes operation
  generalize operation.apply store = ended at hgoes
  cases hgoes with
  | refused => exact ⟨h, rfl⟩
  | gone => exact ⟨h, rfl⟩
  | deleted => exact ⟨rfl, rfl⟩
  | switched => exact ⟨h, rfl⟩
  | written present =>
    rw [h] at present
    cases present

/-- A write does not change whether writes are refused. -/
theorem failing_patch (store : Store) (patch : Patch) :
    (store.patch patch).2.failing = store.failing := by
  have hgoes := store.goes (.write patch)
  have happly : ((Operation.write patch).apply store).2 = (store.patch patch).2 := rfl
  rw [← happly]
  generalize (Operation.write patch).apply store = ended at hgoes
  cases hgoes <;> rfl

/-- Only a deletion takes the object away. -/
theorem isSome_apply (h : store.object.isSome = true) {operation : Operation}
    (hkept : operation ≠ .delete) : (operation.apply store).2.object.isSome = true := by
  have hgoes := store.goes operation
  generalize operation.apply store = ended at hgoes
  cases hgoes with
  | refused => exact h
  | gone => exact h
  | switched => exact h
  | written => rfl
  | deleted => exact absurd rfl hkept

end Records

section Run

variable {body : Body} {collapsing : List FieldPath} {store : Store}

theorem run_cons (operation : Operation) (rest : List Operation) (store : Store) :
    run (operation :: rest) store = run rest (operation.record store).after := rfl

theorem run_append (earlier later : List Operation) (store : Store) :
    run (earlier ++ later) store = run later (run earlier store) := by
  unfold run
  rw [List.foldl_append]

theorem Replays.run (h : Replays body collapsing store) (operations : List Operation) :
    Replays body collapsing (run operations store) := by
  induction operations generalizing store with
  | nil => exact h
  | cons operation rest ih =>
    rw [run_cons]
    exact ih (h.apply operation)

theorem Replays.history (h : Replays body collapsing store) (operations : List Operation) :
    ∀ record ∈ history operations store, record.Sound body collapsing := by
  induction operations generalizing store with
  | nil =>
    intro record hrecord
    cases hrecord
  | cons operation rest ih =>
    intro record hrecord
    rcases List.mem_cons.1 hrecord with rfl | hrecord
    · exact h.sound operation
    · exact ih (h.apply operation) record hrecord

/-- The log holds the patches of the writes that answered with a body, in their order. -/
theorem writes_run (operations : List Operation) (store : Store) : (run operations store).writes =
    store.writes ++ (history operations store).filterMap Record.written? := by
  induction operations generalizing store with
  | nil => exact (List.append_nil _).symm
  | cons operation rest ih =>
    rw [run_cons, ih, writes_record, history, List.append_assoc]
    congr 1
    cases hwritten : (operation.record store).written? with
    | none => rw [List.filterMap_cons_none hwritten]; rfl
    | some patch => rw [List.filterMap_cons_some hwritten]; rfl

theorem gone_run (h : store.object = none) (operations : List Operation) :
    (run operations store).object = none ∧ (run operations store).writes = store.writes := by
  induction operations generalizing store with
  | nil => exact ⟨h, rfl⟩
  | cons operation rest ih =>
    obtain ⟨hobject, hwrites⟩ := gone_apply h operation
    obtain ⟨hgone, hsame⟩ := ih hobject
    rw [run_cons]
    exact ⟨hgone, hsame.trans hwrites⟩

theorem isSome_run (h : store.object.isSome = true) (operations : List Operation)
    (hkept : .delete ∉ operations) : (run operations store).object.isSome = true := by
  induction operations generalizing store with
  | nil => exact h
  | cons operation rest ih =>
    obtain ⟨hfirst, hrest⟩ := not_or.1 (mt List.mem_cons.2 hkept)
    rw [run_cons]
    exact ih (isSome_apply h (Ne.symm hfirst)) hrest

/-- The store is the replay of its log, whatever was done to it and in whichever order. The log
holds the patches of the writes that answered with a body, and until there is a deletion the object
is what these make of the first body. A write that answers with a body answers with the object after
its own patch; any other write changes nothing. After a deletion there is never an object again, and
the log never grows. -/
theorem run_replays_log (body : Body) (collapsing : List FieldPath) (operations : List Operation) :
    (run operations (ofBody body collapsing)).writes =
      (history operations (ofBody body collapsing)).filterMap Record.written? ∧
    (.delete ∉ operations → (run operations (ofBody body collapsing)).object =
      some (replay collapsing body (run operations (ofBody body collapsing)).writes)) ∧
    (∀ record ∈ history operations (ofBody body collapsing), record.Sound body collapsing) ∧
    ∀ earlier later, operations = earlier ++ .delete :: later →
      (run operations (ofBody body collapsing)).object = none ∧
      (run operations (ofBody body collapsing)).writes =
        (run earlier (ofBody body collapsing)).writes := by
  have hreplays := replays_ofBody body collapsing
  refine ⟨writes_run operations (ofBody body collapsing), ?_, hreplays.history operations, ?_⟩
  · intro hkept
    have hpresent : (ofBody body collapsing).object.isSome = true := rfl
    obtain ⟨held, hheld⟩ := Option.isSome_iff_exists.1 (isSome_run hpresent operations hkept)
    rw [hheld]
    exact congrArg some ((hreplays.run operations).object held hheld)
  · intro earlier later hsplit
    have hdeleted : (Operation.delete.record (run earlier (ofBody body collapsing))).after.object =
        none := rfl
    rw [hsplit, run_append, run_cons]
    exact gone_run hdeleted later

/-- A body with one label. -/
def labelled : Body := .objectOfList [("labels", .objectOfList [("app", .str "web")])]

/-- A patch that removes the label. -/
def unlabelling : Patch := ⟨.ofList [("labels", .objectOfList [("app", .null)])]⟩

/-- A patch that asks for two replicas. -/
def scaling : Patch := ⟨.ofList [("replicas", .num (.integer 2))]⟩

/-- The label is removed, writes are refused for a while, the object is scaled and then deleted. -/
def decline : List Operation :=
  [.write unlabelling, .setFailing (some "forbidden"), .write scaling, .setFailing none,
    .write scaling, .delete, .write unlabelling]

/-- Of the four writes two are in the log. The first one has collapsed the labels, the refused one
has changed nothing, and the last one finds no object. -/
theorem decline_replays_log : ∃ unlabelled off refused on scaled deleted late : Record,
    history decline (ofBody labelled [⟨["labels"]⟩]) =
      [unlabelled, off, refused, on, scaled, deleted, late] ∧
    (run decline (ofBody labelled [⟨["labels"]⟩])).writes = [unlabelling, scaling] ∧
    (run decline (ofBody labelled [⟨["labels"]⟩])).object = none ∧
    (run (decline.take 5) (ofBody labelled [⟨["labels"]⟩])).object =
      some (.objectOfList [("replicas", .num (.integer 2))]) ∧
    unlabelled.after.object = some (.objectOfList []) ∧
    refused.after = refused.before ∧ late.after = late.before := by
  obtain ⟨hlog, -, hrecords, hdeleted⟩ := run_replays_log labelled [⟨["labels"]⟩] decline
  obtain ⟨-, hobject, -, -⟩ := run_replays_log labelled [⟨["labels"]⟩] (decline.take 5)
  obtain ⟨unlabelled, off, refused, on, scaled, deleted, late, hrun, hfirst, hrefused, hlate,
      hwritten⟩ :
      ∃ unlabelled off refused on scaled deleted late : Record,
        history decline (ofBody labelled [⟨["labels"]⟩]) =
          [unlabelled, off, refused, on, scaled, deleted, late] ∧
        (unlabelled.operation = .write unlabelling ∧
          unlabelled.answer = some (.ok (some (.objectOfList [])))) ∧
        refused.answer = some (.error (.patch "forbidden")) ∧ late.answer = some (.ok none) ∧
        [unlabelled, off, refused, on, scaled, deleted, late].filterMap Record.written? =
          [unlabelling, scaling] :=
    ⟨_, _, _, _, _, _, _, rfl, ⟨rfl, rfl⟩, rfl, rfl, rfl⟩
  rw [hrun] at hlog hrecords
  have hwrites := hlog.trans hwritten
  have hgone := hdeleted (decline.take 5) [.write unlabelling] rfl
  refine ⟨unlabelled, off, refused, on, scaled, deleted, late, hrun, hwrites, hgone.1, ?_, ?_,
    ?_, ?_⟩
  · rw [hobject (by simp [decline]), ← hgone.2, hwrites]
    rfl
  · exact ((hrecords unlabelled (by simp)).written _ _ hfirst.1 hfirst.2).2.1
  · exact (hrecords refused (by simp)).refused _ hrefused
  · exact (hrecords late (by simp)).gone hlate

end Run

end Store

end ControlLoop
