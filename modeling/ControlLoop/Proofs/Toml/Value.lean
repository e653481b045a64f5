import ControlLoop.Proofs.Toml.Number
import ControlLoop.Proofs.Toml.Text
import ControlLoop.Toml.Document

/-!
# Values in TOML read back

Truth values, integers of 64 bits, floats, texts and lists of these are written
as values and are read back as they were. A value begins with a character that
belongs to no layout and closes nothing. It ends where an item or a line does,
and the items of a list, each on a line of its own, are values of the same kind.
-/

set_option autoImplicit false

namespace ControlLoop.Toml

open ControlLoop.Parser

variable {n : ℕ} {v : ConfigValue} {input rest whole : List Char}

/-- What the notation can hold: no integer beyond 64 bits, and lists that nest no deeper than
`nesting`. -/
inductive Storable : (nesting : ℕ) → ConfigValue → Prop
  | boolean {nesting : ℕ} (b : Bool) : Storable nesting (.boolean b)
  | integer {nesting : ℕ} {n : ℤ} (low : -Int.pow 2 63 ≤ n) (high : n < Int.pow 2 63) :
      Storable nesting (.integer n)
  | float {nesting : ℕ} (x : Binary64) : Storable nesting (.float x)
  | text {nesting : ℕ} (s : String) : Storable nesting (.text s)
  | list {nesting : ℕ} {items : List ConfigValue} (h : ∀ v ∈ items, Storable nesting v) :
      Storable (nesting + 1) (.list items)

/-- A character that layout may begin with. -/
def isLayout (c : Char) : Bool := [' ', '\t', '\n', '\r', '#'].contains c

/-- The text is that of the value, which begins with no layout and is read back from it. -/
structure WritesValue (n : ℕ) (v : ConfigValue) (written : String) : Prop where
  render_eq : renderValue? v = some written
  opens : ∀ rest, Stops isLayout (written.toList ++ rest)
  reads : ∀ {rest}, Closes rest → Reads (value n) (written.toList ++ rest) v rest

section Scalars

/-- What begins with no bracket or brace is a value without parts. -/
theorem value_scalar (n : ℕ) (h : Stops (['[', '\x7b'].contains ·) input) :
    value n (.ofList input) = scalar (.ofList input) := by
  cases n with
  | zero => rfl
  | succ n =>
    have hlist : Fails (arrayOf (value n)) input :=
      (fails_char (h.mono (by simp))).bind
    have htable : Fails (inlineTableOf (value n)) input :=
      (fails_char (h.mono (by simp))).bind
    rw [value, hlist.orElse_eq, htable.orElse_eq]

/-- A value cannot begin where a list ends. -/
theorem fails_value (n : ℕ) (rest : List Char) : Fails (value n) (']' :: rest) := by
  cases n <;> rfl

/-- A quote or the first letter of a truth value. -/
def isTextStart (c : Char) : Bool := ['"', '\'', 't', 'f'].contains c

/-- What begins otherwise than a text or a truth value is a moment or a number. -/
theorem scalar_number (h : Stops isTextStart input) :
    scalar (.ofList input) =
      (moment <|> digitFloat <|> namedFloat <|> integer) (.ofList input) := by
  have htext : Fails text input := fails_text (h.mono (by simp +contextual [isTextStart]))
  have ht : Stops (· == 't') input := h.mono (by simp [isTextStart])
  have hf : Stops (· == 'f') input := h.mono (by simp [isTextStart])
  have htrue : Fails (word "true") input := fails_word (ht.not_begins "rue".toList)
  have hfalse : Fails (word "false") input := fails_word (hf.not_begins "alse".toList)
  have hboolean : Fails boolean input := htrue.bind.orElse_fails hfalse.bind
  rw [scalar, (htext.map _).orElse_eq, hboolean.orElse_eq]

/-- A character that no number begins with, and some value or layout does. -/
def isOther (c : Char) : Bool :=
  ['"', '\'', 't', 'f', ' ', '\t', '\n', '\r', '#', '[', '\x7b'].contains c

theorem isOther_of_isDigit {c : Char} (h : c.isDigit = true) : isOther c = false :=
  contains_eq_false h rfl

/-- The text of a value other than a list. -/
theorem WritesValue.of_number {written : String} (hrender : renderValue? v = some written)
    (hstart : ∀ rest, Stops isOther (written.toList ++ rest))
    (hreads : ∀ {rest}, Closes rest →
      Reads (moment <|> digitFloat <|> namedFloat <|> integer) (written.toList ++ rest) v rest) :
    WritesValue n v written where
  render_eq := hrender
  opens rest := (hstart rest).subset rfl
  reads {rest} hrest := by
    have hstart := hstart rest
    refine (value_scalar n (hstart.subset rfl)).trans ?_
    exact (scalar_number (hstart.subset rfl)).trans (hreads hrest)

theorem WholeDigits.stops_withSign {test : Char → Bool} (h : WholeDigits whole) (negative : Bool)
    (hsign : test '-' = false) (htest : ∀ c, c.isDigit = true → test c = false)
    (rest : List Char) : Stops test (withSign negative (whole ++ rest)) := by
  cases negative with
  | true => exact stops_cons.2 hsign
  | false => exact h.stops htest rest

/-- Digits that no mark of a moment follows are none, whichever their sign. -/
theorem fails_moment_withSign (negative : Bool) (h : WholeDigits whole)
    (hrest : Stops isMomentPart rest) : Fails moment (withSign negative (whole ++ rest)) := by
  cases negative with
  | true => exact fails_moment (stops_cons.2 rfl)
  | false => exact fails_moment_digits h.digits hrest

/-- An integer is written as the digits of its size after its sign. -/
theorem exists_toString (i : ℤ) : ∃ (negative : Bool) (m : ℕ),
    i = (if negative then -(m : ℤ) else m) ∧
      (toString i).toList = withSign negative (Nat.toDigits 10 m) := by
  cases i with
  | ofNat m => exact ⟨false, m, rfl, Nat.toList_repr⟩
  | negSucc m =>
    refine ⟨true, m + 1, rfl, ?_⟩
    have htext : toString (Int.negSucc m) = "-" ++ Nat.repr (m + 1) := rfl
    rw [htext, String.toList_append, Nat.toList_repr]
    rfl

theorem writesValue_integer {i : ℤ} (hlow : -Int.pow 2 63 ≤ i) (hhigh : i < Int.pow 2 63) :
    WritesValue n (.integer i) (toString i) := by
  obtain ⟨negative, m, hi, htext⟩ := exists_toString i
  have hwhole := wholeDigits_toDigits m
  refine .of_number (by rw [renderValue?, if_pos hhigh]) (fun rest => ?_) (fun {rest} hrest => ?_)
  · rw [htext, withSign_append]
    exact hwhole.stops_withSign negative rfl (fun _ => isOther_of_isDigit) rest
  · rw [htext, withSign_append]
    refine (fails_moment_withSign negative hwhole (hrest.stops rfl)).orElse ?_
    refine (fails_digitFloat_digits negative hwhole hrest).orElse ?_
    refine (fails_namedFloat negative hwhole).orElse ?_
    rw [hi] at hlow hhigh ⊢
    exact reads_integer negative hrest hlow hhigh

theorem writesValue_float (x : Binary64) : WritesValue n (.float x) (renderFloat x) := by
  cases x with
  | finite x =>
    obtain ⟨whole, part, h⟩ := exists_decimal x
    have htext (rest : List Char) : (renderFloat (.finite x)).toList ++ rest =
        withSign x.negative (whole ++ '.' :: (part ++ rest)) := by
      rw [renderFloat, h.text_eq, withSign_append, List.append_assoc, List.cons_append]
    refine .of_number rfl (fun rest => ?_) (fun {rest} hrest => ?_)
    · rw [htext]
      exact h.whole_digits.stops_withSign _ rfl (fun _ => isOther_of_isDigit) _
    · rw [htext]
      refine (fails_moment_withSign _ h.whole_digits (stops_cons.2 rfl)).orElse ?_
      exact (reads_digitFloat _ h.whole_digits h.part_digits h.part_ne_nil hrest h.value_eq).orElse
  | infinite negative =>
    have htext : renderFloat (.infinite negative) =
        String.ofList (withSign negative "inf".toList) := by cases negative <;> rfl
    rw [htext]
    refine .of_number (by rw [← htext]; rfl) (fun rest => ?_) (fun {rest} hrest => ?_)
    · cases negative <;> exact stops_cons.2 rfl
    · rw [String.toList_ofList, withSign_append]
      refine (fails_moment (by cases negative <;> exact stops_cons.2 rfl)).orElse ?_
      refine (fails_digitFloat negative (stops_cons.2 rfl) (stops_cons.2 rfl)).orElse ?_
      exact (reads_infinite negative rest).orElse
  | nan =>
    refine .of_number rfl (fun rest => stops_cons.2 rfl) (fun {rest} hrest => ?_)
    refine (fails_moment (stops_cons.2 rfl)).orElse ?_
    refine (fails_digitFloat false (stops_cons.2 rfl) (stops_cons.2 rfl)).orElse ?_
    exact (reads_nan rest).orElse

theorem Quoted.stops {cs written : List Char} (h : Quoted cs written) {test : Char → Bool}
    (hdouble : test '"' = false) (hsingle : test '\'' = false) (rest : List Char) :
    Stops test (written ++ rest) := by
  cases h with
  | line hquote | block hquote =>
    rcases hquote with rfl | rfl
    · exact stops_cons.2 hdouble
    · exact stops_cons.2 hsingle

theorem writesValue_text (s : String) : WritesValue n (.text s) (renderText s) where
  render_eq := rfl
  opens := (quoted_renderText s).stops rfl rfl
  reads {rest} hrest := by
    refine (value_scalar n ((quoted_renderText s).stops rfl rfl rest)).trans ?_
    exact ((reads_renderText s (hrest.stops rfl)).map _).orElse

theorem writesValue_boolean (b : Bool) :
    WritesValue n (.boolean b) (if b then "true" else "false") where
  render_eq := rfl
  opens rest := by cases b <;> exact stops_cons.2 rfl
  reads {rest} hrest := by
    have hboolean : Reads boolean ((if b then "true" else "false").toList ++ rest) (.boolean b)
        rest := by
      cases b with
      | true =>
        exact ((reads_word "true" rest).bind (reads_pure (ConfigValue.boolean true) rest)).orElse
      | false =>
        have htrue : Fails (word "true") ("false".toList ++ rest) :=
          fails_word ((stops_cons.2 rfl : Stops (· == 't') _).not_begins "rue".toList)
        exact htrue.bind.orElse ((reads_word "false" rest).bind (reads_pure _ rest))
    have hstart (test : Char → Bool) (ht : test 't' = false) (hf : test 'f' = false) :
        Stops test ((if b then "true" else "false").toList ++ rest) := by
      cases b with
      | true => exact stops_cons.2 ht
      | false => exact stops_cons.2 hf
    refine (value_scalar n (hstart _ rfl rfl)).trans ?_
    exact ((fails_text (hstart _ rfl rfl)).map _).orElse hboolean.orElse

end Scalars

section Lists

/-- The rest of a line and the blanks of the next one. -/
def lineEnd : Parser Unit := do
  discard <| Parser.optional comment
  newline
  blanks

theorem fails_lineEnd (h : Stops isLayout input) : Fails lineEnd input := by
  have hcomment : Fails comment input := (fails_char (h.mono (by simp [isLayout]))).bind
  have hnewline : Fails newline input := fails_newline (h.mono (by simp +contextual [isLayout]))
  exact hcomment.optional.discard.bind_fails hnewline.bind

/-- Where no layout stands nothing is passed over. -/
theorem reads_layout_none (h : Stops isLayout input) : Reads layout input () input := by
  refine (reads_no_blanks (h.mono (by simp +contextual [isLayout]))).bind ?_
  exact (ReadsAll.stop (fails_lineEnd h)).many.discard.bind (reads_pure () input)

/-- The end of a line and the blanks before the next part are passed over. -/
theorem reads_layout_line (run : List Char) (hrun : ∀ c ∈ run, c = ' ') (h : Stops isLayout input) :
    Reads layout ('\n' :: (run ++ input)) () input := by
  have hcomment : Fails comment ('\n' :: (run ++ input)) := (fails_char (stops_cons.2 rfl)).bind
  have hline : Reads lineEnd ('\n' :: (run ++ input)) () input :=
    hcomment.optional.discard.bind ((reads_char '\n' _).orElse.bind
      (reads_blanks hrun (h.mono (by simp +contextual [isLayout]))))
  refine (reads_no_blanks (stops_cons.2 rfl)).bind ?_
  have hmany : ReadsAll lineEnd ('\n' :: (run ++ input)) [()] input :=
    .step hline (by simp) (.stop (fails_lineEnd h))
  exact hmany.many.discard.bind (reads_pure () input)

variable {items : List ConfigValue} {texts : List String} {written : String}

/-- An item of a list and the layout after it. -/
def item (n : ℕ) : Parser ConfigValue := do
  let v ← value n
  layout
  return v

/-- The comma between two items and the layout after it. -/
def comma : Parser Unit := do
  Parser.char ','
  layout

theorem WritesValue.reads_item (h : WritesValue n v written) (rest : List Char)
    (hrest : Closes rest) (hlayout : Stops isLayout rest) :
    Reads (item n) (written.toList ++ rest) v rest :=
  (h.reads hrest).bind ((reads_layout_none hlayout).bind (reads_pure v rest))

/-- The lines of the items of a list. -/
def itemLines (texts : List String) : List Char :=
  texts.flatMap fun t => [' ', ' ', ' ', ' '] ++ (t.toList ++ [',', '\n'])

theorem reads_comma (rest : List Char) (h : Stops isLayout rest) :
    Reads comma (',' :: '\n' :: rest) () rest :=
  (reads_char ',' _).bind (reads_layout_line [] nofun h)

/-- The line of an item begins with blanks, and it is followed by those of the others. -/
theorem WritesValue.reads_indent (h : WritesValue n v written) (texts : List String)
    (rest : List Char) :
    Reads layout ('\n' :: (itemLines (written :: texts) ++ rest)) ()
      (written.toList ++ ',' :: '\n' :: (itemLines texts ++ rest)) := by
  have hline := reads_layout_line [' ', ' ', ' ', ' '] (by simp)
    (h.opens (',' :: '\n' :: (itemLines texts ++ rest)))
  simpa [itemLines] using hline

theorem closes_comma (rest : List Char) : Closes (',' :: rest) := by simp [Closes]

/-- The items after the first one are read up to the comma at the end of the last line. -/
theorem readsAll_items (h : List.Forall₂ (WritesValue n) items texts) (rest : List Char) :
    ReadsAll (do discard comma; item n) (',' :: '\n' :: (itemLines texts ++ ']' :: rest)) items
      (',' :: '\n' :: ']' :: rest) := by
  induction h with
  | nil =>
    have hcomma := reads_comma (']' :: rest) (stops_cons.2 rfl)
    exact .stop (hcomma.discard.bind_fails (fails_value n rest).bind)
  | @cons v t items texts hv _ ih =>
    have hcomma : Reads comma (',' :: '\n' :: (itemLines (t :: texts) ++ ']' :: rest)) ()
        (t.toList ++ ',' :: '\n' :: (itemLines texts ++ ']' :: rest)) :=
      (reads_char ',' _).bind (hv.reads_indent texts _)
    refine .step (hcomma.discard.bind (hv.reads_item _ (closes_comma _) (stops_cons.2 rfl))) ?_ ih
    simp [itemLines]
    omega

theorem reads_arrayOf {first mid : List Char} (hopen : Reads layout input () first)
    (hitems : Reads (sepBy (item n) comma) first items mid)
    (hclose : if items.isEmpty then mid = ']' :: rest
      else ∃ found, Reads (Parser.optional comma) mid found (']' :: rest)) :
    Reads (arrayOf (value n)) ('[' :: input) (.list items) rest := by
  refine (reads_char '[' _).bind (hopen.bind (hitems.bind ?_))
  have hend := (reads_char ']' rest).bind (f := fun _ => pure (ConfigValue.list items))
    (reads_pure _ rest)
  cases hempty : items.isEmpty with
  | true =>
    rw [hempty] at hclose
    simp only [↓reduceIte] at hclose
    rw [hclose]
    exact hend
  | false =>
    rw [hempty] at hclose
    obtain ⟨found, hfound⟩ := hclose
    exact hfound.discard.bind hend

theorem toList_join_lines (texts : List String) :
    (String.join (texts.map fun t => "    " ++ t ++ ",\n")).toList = itemLines texts := by
  simp [itemLines, List.flatMap, Function.comp_def]

/-- A list is read back from its layout, whether that is on one line or over several. -/
theorem reads_renderList (h : List.Forall₂ (WritesValue n) items texts) (rest : List Char) :
    Reads (arrayOf (value n)) ((renderList texts).toList ++ rest) (.list items) rest := by
  cases h with
  | nil =>
    have hitem : Fails (item n) (']' :: rest) := (fails_value n rest).bind
    exact reads_arrayOf (reads_layout_none (stops_cons.2 rfl)) (Fails.sepBy hitem) rfl
  | @cons v t items texts hv h =>
    cases h with
    | nil =>
      have hitem := hv.reads_item (']' :: rest) (by simp [Closes]) (stops_cons.2 rfl)
      have hcomma : Fails comma (']' :: rest) := (fails_char (stops_cons.2 rfl)).bind
      have hfirst : Reads (sepBy1 (item n) comma) (t.toList ++ ']' :: rest) [v] (']' :: rest) :=
        ReadsAll.sepBy1 hitem (.stop hcomma.discard.bind)
      have hitems := hfirst.orElse (q := pure [])
      have hread := reads_arrayOf (reads_layout_none (hv.opens _)) hitems ⟨none, hcomma.optional⟩
      simpa [renderList] using hread
    | @cons w u items texts hw h =>
      have htext : (renderList (t :: u :: texts)).toList =
          '[' :: '\n' :: (itemLines (t :: u :: texts) ++ [']']) := by
        rw [renderList, String.toList_append, String.toList_append, toList_join_lines]
        · rfl
        · simp
        · simp
      have hitem := hv.reads_item (',' :: '\n' :: (itemLines (u :: texts) ++ ']' :: rest))
        (closes_comma _) (stops_cons.2 rfl)
      have hitems := (ReadsAll.sepBy1 hitem (readsAll_items (.cons hw h) rest)).orElse
        (q := pure [])
      have hlast := (reads_comma (']' :: rest) (stops_cons.2 rfl)).optional
      have hread := reads_arrayOf (hv.reads_indent (u :: texts) _) hitems ⟨_, hlast⟩
      rw [htext]
      simpa using hread

theorem renderItems?_eq (h : List.Forall₂ (WritesValue n) items texts) :
    renderValue?.renderItems? items = some texts := by
  induction h with
  | nil => rfl
  | cons hv _ ih => simp [renderValue?.renderItems?, hv.render_eq, ih]

theorem stops_renderList (texts : List String) (rest : List Char) :
    Stops isLayout ((renderList texts).toList ++ rest) := by
  have hopen : ∃ more, (renderList texts).toList = '[' :: more := by
    match texts with
    | [] => exact ⟨_, rfl⟩
    | [t] => exact ⟨t.toList ++ [']'], by simp [renderList]⟩
    | t :: u :: texts => exact ⟨_, by simp [renderList]; rfl⟩
  obtain ⟨more, hmore⟩ := hopen
  rw [hmore]
  exact stops_cons.2 rfl

theorem writesValue_list (h : List.Forall₂ (WritesValue n) items texts) :
    WritesValue (n + 1) (.list items) (renderList texts) where
  render_eq := by rw [renderValue?, renderItems?_eq h]; rfl
  opens := stops_renderList texts
  reads _ := (reads_renderList h _).orElse

theorem exists_forall₂ {α β : Type} {R : α → β → Prop} {as : List α}
    (h : ∀ a ∈ as, ∃ b, R a b) : ∃ bs, List.Forall₂ R as bs := by
  induction as with
  | nil => exact ⟨[], .nil⟩
  | cons a as ih =>
    obtain ⟨b, hb⟩ := h a List.mem_cons_self
    obtain ⟨bs, hbs⟩ := ih fun c hc => h c (List.mem_cons_of_mem a hc)
    exact ⟨b :: bs, .cons hb hbs⟩

/-- What the notation can hold is written, and what is written is read back. -/
theorem Storable.exists_writes (h : Storable n v) : ∃ written, WritesValue n v written := by
  induction h with
  | boolean b => exact ⟨_, writesValue_boolean b⟩
  | integer low high => exact ⟨_, writesValue_integer low high⟩
  | float x => exact ⟨_, writesValue_float x⟩
  | text s => exact ⟨_, writesValue_text s⟩
  | list _ ih =>
    obtain ⟨texts, htexts⟩ := exists_forall₂ ih
    exact ⟨_, writesValue_list htexts⟩

end Lists

end ControlLoop.Toml
