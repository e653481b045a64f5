import ControlLoop.Text.Parser

/-!
# What parsers read

A parser reads a value from the front of a text and leaves the rest, or it
fails. Either is a fact about two texts, and the facts about a parser are put
together from those about its parts. Repetition reads one value after the other
up to a place where no further one can be read.
-/

set_option autoImplicit false

namespace ControlLoop

namespace Parser

variable {α β : Type} {p : Parser α} {text mid rest : List Char} {a : α}

/-- The parser reads a value from the front of the text and leaves the rest. -/
def Reads (p : Parser α) (text : List Char) (a : α) (rest : List Char) : Prop :=
  p (.ofList text) = some (a, .ofList rest)

/-- The parser reads nothing from the front of the text. -/
def Fails (p : Parser α) (text : List Char) : Prop := p (.ofList text) = none

/-- The text does not go on with a character that passes the test. -/
def Stops (test : Char → Bool) (text : List Char) : Prop := ∀ c ∈ text.head?, test c = false

@[simp] theorem stops_nil (test : Char → Bool) : Stops test [] := nofun

@[simp] theorem stops_cons {test : Char → Bool} {c : Char} :
    Stops test (c :: rest) ↔ test c = false := by
  simp [Stops]

theorem Stops.mono {test fewer : Char → Bool} (h : Stops test text)
    (himp : ∀ c, fewer c = true → test c = true) : Stops fewer text := by
  intro c hc
  rw [← Bool.not_eq_true]
  intro hfewer
  exact Bool.eq_false_iff.1 (h c hc) (himp c hfewer)

theorem contains_eq_false {test : Char → Bool} {c : Char} {cs : List Char} (h : test c = true)
    (hcs : cs.all (fun d => !test d) = true) : cs.contains c = false := by
  rw [← Bool.not_eq_true]
  intro hc
  have hnot := List.all_eq_true.1 hcs c (List.contains_iff_mem.1 hc)
  rw [h] at hnot
  cases hnot

theorem Stops.subset {cs ds : List Char} (h : Stops (cs.contains ·) text)
    (hsub : ds.all cs.contains = true) : Stops (ds.contains ·) text :=
  h.mono fun c hc => List.all_eq_true.1 hsub c (List.contains_iff_mem.1 hc)

theorem Stops.not_begins {c : Char} (h : Stops (· == c) text) (cs : List Char) :
    ¬ c :: cs <+: text := by
  rintro ⟨more, rfl⟩
  exact absurd (stops_cons.1 h) (by simp)

theorem reads_pure (a : α) (text : List Char) : Reads (pure a) text a text := rfl

theorem fails_failure (text : List Char) : Fails (failure : Parser α) text := rfl

section Sequence

variable {f : α → Parser β} {b : β}

theorem Reads.bind (hp : Reads p text a mid) (hf : Reads (f a) mid b rest) :
    Reads (p >>= f) text b rest := by
  show (p (.ofList text)).bind (fun r => f r.1 r.2) = _
  rw [hp]
  exact hf

theorem Reads.bind_fails (hp : Reads p text a mid) (hf : Fails (f a) mid) :
    Fails (p >>= f) text := by
  show (p (.ofList text)).bind (fun r => f r.1 r.2) = _
  rw [hp]
  exact hf

theorem Fails.bind (hp : Fails p text) : Fails (p >>= f) text := by
  show (p (.ofList text)).bind (fun r => f r.1 r.2) = _
  rw [hp]
  rfl

theorem Reads.map (g : α → β) (hp : Reads p text a rest) : Reads (g <$> p) text (g a) rest := by
  show (p (.ofList text)).bind (fun r => some (g r.1, r.2)) = _
  rw [hp]
  rfl

theorem Fails.map (g : α → β) (hp : Fails p text) : Fails (g <$> p) text := by
  show (p (.ofList text)).bind (fun r => some (g r.1, r.2)) = _
  rw [hp]
  rfl

theorem Reads.discard (hp : Reads p text a rest) : Reads (discard p) text () rest := hp.map _

theorem Fails.discard (hp : Fails p text) : Fails (discard p) text := hp.map _

end Sequence

section Choice

variable {q : Parser α}

theorem Reads.orElse (hp : Reads p text a rest) : Reads (p <|> q) text a rest := by
  show (p (.ofList text) <|> q (.ofList text)) = _
  rw [hp]
  rfl

/-- After a parser that fails the next one starts from the same place. -/
theorem Fails.orElse_eq (hp : Fails p text) : (p <|> q) (.ofList text) = q (.ofList text) := by
  show (p (.ofList text) <|> q (.ofList text)) = _
  rw [hp]
  rfl

theorem Fails.orElse (hp : Fails p text) (hq : Reads q text a rest) :
    Reads (p <|> q) text a rest :=
  hp.orElse_eq.trans hq

theorem Fails.orElse_fails (hp : Fails p text) (hq : Fails q text) : Fails (p <|> q) text :=
  hp.orElse_eq.trans hq

theorem Reads.optional (hp : Reads p text a rest) : Reads (optional p) text (some a) rest :=
  (hp.map some).orElse

theorem Fails.optional (hp : Fails p text) : Reads (optional p) text none text :=
  (hp.map some).orElse (reads_pure none text)

end Choice

section Characters

variable {test : Char → Bool} {c : Char}

theorem reads_satisfy (h : test c = true) : Reads (satisfy test) (c :: rest) c rest := by
  show (if test c then _ else _) = _
  rw [if_pos h]
  rfl

/-- Every character can be read. -/
theorem reads_any (c : Char) (rest : List Char) :
    Reads (satisfy fun _ => true) (c :: rest) c rest :=
  reads_satisfy rfl

theorem fails_satisfy (h : Stops test text) : Fails (satisfy test) text := by
  cases text with
  | nil => rfl
  | cons c rest =>
    show (if test c then _ else _) = _
    rw [if_neg (Bool.eq_false_iff.1 (stops_cons.1 h))]

theorem reads_char (c : Char) (rest : List Char) : Reads (char c) (c :: rest) () rest :=
  (reads_satisfy (beq_self_eq_true c)).discard

theorem fails_char (h : Stops (· == c) text) : Fails (char c) text := (fails_satisfy h).discard

theorem reads_chars (cs rest : List Char) : Reads (chars cs) (cs ++ rest) () rest := by
  induction cs with
  | nil => rfl
  | cons c cs ih => exact (reads_char c _).bind ih

theorem fails_chars {cs : List Char} (h : ¬ cs <+: text) : Fails (chars cs) text := by
  induction cs generalizing text with
  | nil => exact absurd List.nil_prefix h
  | cons c cs ih =>
    cases text with
    | nil => exact (fails_char (stops_nil _)).bind
    | cons d rest =>
      by_cases hd : d = c
      · subst hd
        have hrest : ¬ cs <+: rest := fun hprefix => h (List.cons_prefix_cons.2 ⟨rfl, hprefix⟩)
        exact (reads_char d rest).bind_fails (ih hrest)
      · exact (fails_char (stops_cons.2 (beq_eq_false_iff_ne.2 hd))).bind

theorem reads_word (w : String) (rest : List Char) : Reads (word w) (w.toList ++ rest) () rest :=
  reads_chars w.toList rest

theorem fails_word {w : String} (h : ¬ w.toList <+: text) : Fails (word w) text := fails_chars h

theorem takeWhile_of_stops (h : Stops test text) : text.takeWhile test = [] := by
  cases text with
  | nil => rfl
  | cons c rest => rw [List.takeWhile_cons, stops_cons.1 h]; rfl

theorem reads_takeWhile {run : List Char} (hrun : ∀ c ∈ run, test c = true)
    (hrest : Stops test rest) : Reads (takeWhile test) (run ++ rest) run rest := by
  have hall : (run ++ rest).takeWhile test = run := by
    rw [List.takeWhile_append_of_pos hrun, takeWhile_of_stops hrest, List.append_nil]
  show some _ = _
  simp only [Input.rest_ofList, hall]
  congr 2
  ext1
  simp

theorem reads_skipWhile {run : List Char} (hrun : ∀ c ∈ run, test c = true)
    (hrest : Stops test rest) : Reads (skipWhile test) (run ++ rest) () rest :=
  (reads_takeWhile hrun hrest).discard

theorem reads_takeWhile1 {run : List Char} (hne : run ≠ []) (hrun : ∀ c ∈ run, test c = true)
    (hrest : Stops test rest) : Reads (takeWhile1 test) (run ++ rest) run rest := by
  refine (reads_takeWhile hrun hrest).bind ?_
  rw [List.isEmpty_eq_false_iff.2 hne]
  exact reads_pure run rest

theorem fails_takeWhile1 (h : Stops test text) : Fails (takeWhile1 test) text :=
  (reads_takeWhile (nofun : ∀ c ∈ [], test c = true) h).bind_fails (fails_failure text)

end Characters

section Repetition

variable {as : List α}

/-- The parser reads these values one after the other, each from a text that gets shorter, and then
fails. -/
inductive ReadsAll (p : Parser α) : List Char → List α → List Char → Prop
  | stop {text : List Char} (fails : Fails p text) : ReadsAll p text [] text
  | step {text mid rest : List Char} {a : α} {as : List α} (reads : Reads p text a mid)
      (shorter : mid.length < text.length) (more : ReadsAll p mid as rest) :
      ReadsAll p text (a :: as) rest

theorem ReadsAll.manyLoop (h : ReadsAll p text as rest) (done : List α) :
    manyLoop p done (.ofList text) = (done.reverse ++ as, .ofList rest) := by
  induction h generalizing done with
  | stop fails =>
    rw [Parser.manyLoop, fails, List.append_nil]
  | @step text mid rest a as reads shorter more ih =>
    have hsize : (Input.ofList mid).size < (Input.ofList text).size := shorter
    rw [Parser.manyLoop, reads]
    simp only [hsize, ↓reduceIte, ih, List.reverse_cons, List.append_assoc, List.singleton_append]

theorem ReadsAll.many (h : ReadsAll p text as rest) : Reads (many p) text as rest := by
  show some (Parser.manyLoop p [] (.ofList text)) = _
  rw [h.manyLoop]
  rfl

/-- What is read after a separator goes on the list that the first value starts. -/
theorem ReadsAll.sepBy1 {separator : Parser β} (hfirst : Reads p text a mid)
    (hmore : ReadsAll (do discard separator; p) mid as rest) :
    Reads (sepBy1 p separator) text (a :: as) rest :=
  hfirst.bind (hmore.many.bind (reads_pure _ rest))

/-- Where a first value cannot be read there are none. -/
theorem Fails.sepBy {separator : Parser β} (h : Fails p text) :
    Reads (sepBy p separator) text [] text :=
  Fails.orElse (h.bind) (reads_pure [] text)

end Repetition

/-- A text is read as a value if the value is all there is. -/
theorem Reads.parse? {s : String} (h : Reads p s.toList a []) : p.parse? s = some a := by
  have hrun : p.run (.ofList s.toList) = some (a, .ofList []) := h
  rw [Parser.parse?, hrun]
  rfl

end Parser

end ControlLoop
