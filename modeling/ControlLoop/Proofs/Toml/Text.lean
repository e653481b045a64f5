import ControlLoop.Proofs.Text.Digits
import ControlLoop.Toml.Printer
import ControlLoop.Toml.Text

/-!
# Texts in TOML read back

A text between quotes is written piece by piece: most characters stand for
themselves, some are escaped, and over several lines up to two quotes may stand
side by side. The reader takes whole runs at a time, and it may leave quotes at
the end of the text to be told from the closing ones. What it puts together is
the text that was written, whichever of the forms was chosen.
-/

set_option autoImplicit false

namespace ControlLoop.Toml

open ControlLoop.Parser

variable {quote c : Char} {block : Bool} {before : Nat}
  {cs written run content input mid rest close : List Char}

/-- A character that stands for itself between quotes of the given kind. -/
def isPlain (quote c : Char) : Bool :=
  (isShown c || isBeyondAscii c) && c != quote && (c != '\\' || quote == '\'')

/-- One character in a form of its own: a line feed over several lines, or an escape. -/
inductive Piece (quote : Char) (block : Bool) : Char → List Char → Prop
  | lineFeed (hblock : block = true) : Piece quote block '\n' ['\n']
  | escaped {c mark : Char} {more : List Char} (hquote : quote = '"')
      (hmark : mark ∉ [' ', '\t', '\n', '\r'])
      (hreads : ∀ rest, Reads escape ('\\' :: mark :: (more ++ rest)) c rest) :
      Piece quote block c ('\\' :: mark :: more)

/-- What may stand between quotes for a text, where some quotes went before that stand for
themselves. There are never more than two of them side by side, and none on one line. -/
inductive Inside (quote : Char) (block : Bool) : Nat → List Char → List Char → Prop
  | nil {before : Nat} (hbefore : before ≤ 2) : Inside quote block before [] []
  | quote {before : Nat} {cs written : List Char} (hblock : block = true)
      (more : Inside quote block (before + 1) cs written) :
      Inside quote block before (quote :: cs) (quote :: written)
  | plain {before : Nat} {c : Char} {cs written : List Char} (hbefore : before ≤ 2)
      (hplain : isPlain quote c = true) (more : Inside quote block 0 cs written) :
      Inside quote block before (c :: cs) (c :: written)
  | piece {before : Nat} {c : Char} {cs piece written : List Char} (hbefore : before ≤ 2)
      (hpiece : Piece quote block c piece) (more : Inside quote block 0 cs written) :
      Inside quote block before (c :: cs) (piece ++ written)

section Characters

theorem ne_of_isPlain (h : isPlain quote c = true) : c ≠ quote := by
  simp only [isPlain, Bool.and_eq_true, bne_iff_ne] at h
  exact h.1.2

theorem isPlain_quote (quote : Char) : isPlain quote quote = false := by simp [isPlain]

theorem isPlain_lineFeed (quote : Char) : isPlain quote '\n' = false := by
  simp [isPlain, isShown, isBeyondAscii]

theorem isPlain_carriageReturn (quote : Char) : isPlain quote '\r' = false := by
  simp [isPlain, isShown, isBeyondAscii]

/-- What no form has to escape is shown, unless it ends a line. -/
theorem isShown_or_isBeyondAscii (h : isControl c = false) (hline : c ≠ '\n') :
    (isShown c || isBeyondAscii c) = true := by
  have hdelete : c.toNat ≠ 127 := by
    intro hc
    have hchar : c = '\x7f' := Char.toNat_inj.1 hc
    rw [hchar] at h
    cases h
  simp only [isControl, Bool.or_eq_false_iff, Bool.and_eq_false_iff, bne_eq_false_iff_eq,
    decide_eq_false_iff_not, Char.lt_def, UInt32.lt_iff_toNat_lt, hline, or_false] at h
  simp only [isShown, isBeyondAscii, Bool.or_eq_true, Bool.and_eq_true, beq_iff_eq,
    decide_eq_true_eq, Char.le_def, UInt32.le_iff_toNat_le]
  rcases h.1 with hblank | htab
  · have hspace : ' '.val.toNat = 32 := rfl
    have htilde : '~'.val.toNat = 126 := rfl
    have htoNat : c.val.toNat = c.toNat := rfl
    omega
  · exact Or.inl (Or.inl htab)

end Characters

section Pieces

/-- The pieces that the parser reads, put together. -/
def ReadsInto (p : Parser (List Char)) (input content rest : List Char) : Prop :=
  ∃ runs, ReadsAll p input runs rest ∧ runs.flatten = content

variable {p : Parser (List Char)}

theorem ReadsInto.stop (h : Fails p input) : ReadsInto p input [] input := ⟨[], .stop h, rfl⟩

theorem ReadsInto.step (hrun : Reads p input run mid) (hlt : mid.length < input.length)
    (h : ReadsInto p mid content rest) : ReadsInto p input (run ++ content) rest := by
  obtain ⟨runs, hruns, rfl⟩ := h
  exact ⟨run :: runs, .step hrun hlt hruns, rfl⟩

theorem length_lt_append (hne : run ≠ []) (input : List Char) :
    input.length < (run ++ input).length := by
  have hpos : 0 < run.length := List.length_pos_iff.2 hne
  rw [List.length_append]
  omega

/-- A parser of pieces reads runs as long as they are, and it fails where the closing quotes begin,
which may have more quotes before them. -/
structure ReadsPieces (p : Parser (List Char)) (quote : Char) (block : Bool)
    (close : List Char) : Prop where
  isQuote : quote = '"' ∨ quote = '\''
  plain : ∀ {run input : List Char}, run ≠ [] → (∀ c ∈ run, isPlain quote c = true) →
    Stops (isPlain quote) input → Reads p (run ++ input) run input
  quotes : block = true → ∀ {n : Nat} {input : List Char}, 0 < n → n ≤ 2 →
    Stops (· == quote) input →
    Reads p (List.replicate n quote ++ input) (List.replicate n quote) input
  piece : ∀ {c : Char} {piece : List Char} (input : List Char), Piece quote block c piece →
    Reads p (piece ++ input) [c] input
  fails : ∀ {n : Nat}, n ≤ 2 → (block = false → n = 0) → Fails p (List.replicate n quote ++ close)
  stops_close : Stops (isPlain quote) close

/-- A run that has been begun: quotes that stand for themselves, or plain characters. -/
inductive Pending (quote : Char) (block : Bool) : Nat → List Char → Prop
  | quotes {n : Nat} (hblock : block = true) :
      Pending quote block (n + 1) (List.replicate (n + 1) quote)
  | plain {run : List Char} (hplain : ∀ c ∈ run, isPlain quote c = true) :
      Pending quote block 0 run

theorem ReadsPieces.plain_run (hp : ReadsPieces p quote block close)
    (hrun : ∀ c ∈ run, isPlain quote c = true) (hstops : Stops (isPlain quote) input)
    (h : ReadsInto p input content rest) : ReadsInto p (run ++ input) (run ++ content) rest := by
  cases run with
  | nil => exact h
  | cons c run =>
    have hne : c :: run ≠ [] := List.cons_ne_nil c run
    exact h.step (hp.plain hne hrun hstops) (length_lt_append hne input)

theorem ReadsPieces.quote_run (hp : ReadsPieces p quote block close) (hblock : block = true)
    {n : Nat} (hn : n + 1 ≤ 2) (hstops : Stops (· == quote) input)
    (h : ReadsInto p input content rest) :
    ReadsInto p (List.replicate (n + 1) quote ++ input) (List.replicate (n + 1) quote ++ content)
      rest :=
  h.step (hp.quotes hblock (Nat.succ_pos n) hn hstops)
    (length_lt_append (List.cons_ne_nil quote _) input)

/-- A run ends where neither a plain character nor a quote comes next. -/
theorem ReadsPieces.pending_run (hp : ReadsPieces p quote block close)
    (hrun : Pending quote block before run) (hbefore : before ≤ 2)
    (hplain : Stops (isPlain quote) input) (hquote : Stops (· == quote) input)
    (h : ReadsInto p input content rest) : ReadsInto p (run ++ input) (run ++ content) rest := by
  cases hrun with
  | quotes hblock => exact hp.quote_run hblock hbefore hquote h
  | plain hall => exact hp.plain_run hall hplain h

theorem Piece.stops {piece : List Char} (h : Piece quote block c piece)
    (hquote : quote = '"' ∨ quote = '\'') (input : List Char) :
    Stops (isPlain quote) (piece ++ input) ∧ Stops (· == quote) (piece ++ input) := by
  cases h with
  | lineFeed =>
    refine ⟨stops_cons.2 (isPlain_lineFeed quote), stops_cons.2 (beq_eq_false_iff_ne.2 ?_)⟩
    rcases hquote with rfl | rfl <;> decide
  | escaped h =>
    subst h
    exact ⟨stops_cons.2 rfl, stops_cons.2 rfl⟩

/-- The pieces of a text are read up to the closing quotes. Quotes at the end of the text may be
left before these. -/
theorem Inside.reads (h : Inside quote block before cs written)
    (hp : ReadsPieces p quote block close) (hrun : Pending quote block before run) :
    ∃ n ≤ 2, (block = false → n = 0) ∧ ∃ content, content ++ List.replicate n quote = run ++ cs ∧
      ReadsInto p (run ++ (written ++ close)) content (List.replicate n quote ++ close) := by
  -- The run that is pending grows until something else comes, and only then it is read.
  induction h generalizing run with
  | nil hbefore =>
    cases hrun with
    | @quotes n htrue =>
      have hfalse : block = false → n + 1 = 0 := by simp [htrue]
      exact ⟨n + 1, hbefore, hfalse, [], by simp, .stop (hp.fails hbefore hfalse)⟩
    | plain hall =>
      have hstop : ReadsInto p close [] close := .stop (hp.fails (Nat.zero_le 2) fun _ => rfl)
      exact ⟨0, Nat.zero_le 2, fun _ => rfl, run ++ [], by simp,
        hp.plain_run hall hp.stops_close hstop⟩
  | @quote before cs written htrue more ih =>
    cases hrun with
    | @quotes n =>
      have hgrow : ∀ l : List Char, List.replicate (n + 1) quote ++ quote :: l =
          List.replicate (n + 1 + 1) quote ++ l := by
        intro l
        rw [List.replicate_succ' (n := n + 1), List.append_assoc, List.singleton_append]
      rw [List.cons_append, hgrow, hgrow]
      exact ih (.quotes htrue)
    | plain hall =>
      obtain ⟨n, hn, hfalse, content, hcontent, hreads⟩ := ih (.quotes htrue)
      refine ⟨n, hn, hfalse, run ++ content, by rw [List.append_assoc, hcontent]; rfl, ?_⟩
      exact hp.plain_run hall (stops_cons.2 (isPlain_quote quote)) hreads
  | @plain before c cs written hbefore hplain more ih =>
    cases hrun with
    | @quotes n htrue =>
      obtain ⟨m, hm, hfalse, content, hcontent, hreads⟩ := ih
        (.plain (List.forall_mem_singleton.2 hplain))
      refine ⟨m, hm, hfalse, List.replicate (n + 1) quote ++ content,
        by rw [List.append_assoc, hcontent]; rfl, ?_⟩
      exact hp.quote_run htrue hbefore (stops_cons.2 (beq_eq_false_iff_ne.2 (ne_of_isPlain hplain)))
        hreads
    | plain hall =>
      have hgrown : ∀ d ∈ run ++ [c], isPlain quote d = true :=
        List.forall_mem_append.2 ⟨hall, List.forall_mem_singleton.2 hplain⟩
      simpa using ih (.plain hgrown)
  | @piece before c cs piece written hbefore hpiece more ih =>
    obtain ⟨n, hn, hfalse, content, hcontent, hreads⟩ := ih (.plain (nofun : ∀ c ∈ [], _))
    refine ⟨n, hn, hfalse, run ++ ([c] ++ content),
      by rw [List.append_assoc, List.append_assoc, hcontent]; rfl, ?_⟩
    rw [List.append_assoc]
    have hstops := hpiece.stops hp.isQuote (written ++ close)
    have hne : piece ≠ [] := by cases hpiece <;> exact List.cons_ne_nil _ _
    exact hp.pending_run hrun hbefore hstops.1 hstops.2
      (hreads.step (hp.piece _ hpiece) (length_lt_append hne _))

end Pieces

section Parsers

/-- Blanks are passed over. -/
theorem reads_blanks (hrun : ∀ c ∈ run, c = ' ')
    (h : Stops (fun c => c == ' ' || c == '\t') rest) : Reads blanks (run ++ rest) () rest :=
  reads_skipWhile (fun c hc => by rw [hrun c hc]; rfl) h

theorem reads_no_blanks (h : Stops (fun c => c == ' ' || c == '\t') rest) :
    Reads blanks rest () rest :=
  reads_blanks (nofun : ∀ c ∈ [], c = ' ') h

theorem reads_plainRun (hne : run ≠ []) (hrun : ∀ c ∈ run, isPlain quote c = true)
    (hstops : Stops (isPlain quote) input) : Reads (plainRun quote) (run ++ input) run input :=
  reads_takeWhile1 hne hrun hstops

theorem fails_plainRun (h : Stops (isPlain quote) input) : Fails (plainRun quote) input :=
  fails_takeWhile1 h

theorem fails_escapedRun (h : Stops (· == '\\') input) : Fails (escapedRun quote) input := by
  rw [escapedRun]
  split
  · exact (fails_char h).bind.bind
  · exact fails_failure input

theorem fails_newline (h : Stops (fun c => c == '\n' || c == '\r') input) :
    Fails newline input := by
  have hline : Stops (· == '\n') input := h.mono (by simp)
  have hreturn : Stops (· == '\r') input := h.mono (by simp)
  exact (fails_char hline).orElse_fails (fails_word (hreturn.not_begins ['\n']))

/-- No quote of a text begins a piece of its own. -/
theorem stops_quote (h : quote = '"' ∨ quote = '\'') (rest : List Char) :
    Stops (isPlain quote) (quote :: rest) ∧ Stops (· == '\\') (quote :: rest) ∧
      Stops (fun c => c == '\n' || c == '\r') (quote :: rest) := by
  refine ⟨stops_cons.2 (isPlain_quote quote), stops_cons.2 ?_, stops_cons.2 ?_⟩
  all_goals
    rcases h with rfl | rfl <;> rfl

theorem reads_escapedRun {mark : Char} {more : List Char} (rest : List Char)
    (h : Reads escape ('\\' :: mark :: (more ++ rest)) c rest) :
    Reads (escapedRun '"') ('\\' :: mark :: (more ++ rest)) [c] rest :=
  h.bind (reads_pure [c] rest)

/-- The pieces of a text on one line. -/
theorem readsPieces_line (hquote : quote = '"' ∨ quote = '\'') (rest : List Char) :
    ReadsPieces (plainRun quote <|> escapedRun quote) quote false (quote :: rest) where
  isQuote := hquote
  plain hne hrun hstops := (reads_plainRun hne hrun hstops).orElse
  quotes h := nomatch h
  piece input h := by
    have hstops := h.stops hquote input
    cases h with
    | lineFeed h => exact nomatch h
    | escaped hq hmark hreads =>
      subst hq
      exact (fails_plainRun hstops.1).orElse (reads_escapedRun input (hreads input))
  fails _ hzero := by
    obtain ⟨hplain, hescape, -⟩ := stops_quote hquote rest
    rw [hzero rfl]
    exact (fails_plainRun hplain).orElse_fails (fails_escapedRun hescape)
  stops_close := (stops_quote hquote rest).1

/-- The parser of the pieces of a text over several lines. -/
def blockPieces (quote : Char) : Parser (List Char) :=
  let lineBreak : Parser (List Char) := do newline; return ['\n']
  let hidden := if quote == '"' then hiddenBreak else failure
  plainRun quote <|> lineBreak <|> hidden <|> escapedRun quote <|> innerQuotes quote

theorem reads_lineBreak (input : List Char) :
    Reads (do newline; return ['\n']) ('\n' :: input) ['\n'] input :=
  (reads_char '\n' input).orElse.bind (reads_pure ['\n'] input)

theorem fails_lineBreak (h : Stops (fun c => c == '\n' || c == '\r') input) :
    Fails (do newline; return ['\n']) input :=
  (fails_newline h).bind

theorem fails_hidden (h : Stops (· == '\\') input) :
    Fails (if quote == '"' then hiddenBreak else failure) input := by
  split
  · exact (fails_char h).bind
  · exact fails_failure input

/-- A backslash before a visible character does not hide the end of the line. -/
theorem fails_hiddenBreak {mark : Char} (hmark : mark ∉ [' ', '\t', '\n', '\r'])
    (rest : List Char) : Fails hiddenBreak ('\\' :: mark :: rest) := by
  simp only [List.mem_cons, not_or] at hmark
  refine (reads_char '\\' _).bind_fails ?_
  have hblanks : Stops (fun c => c == ' ' || c == '\t') (mark :: rest) :=
    stops_cons.2 (by simp [hmark])
  exact (reads_no_blanks hblanks).bind_fails (fails_newline (stops_cons.2 (by simp [hmark]))).bind

theorem reads_innerQuotes {n : Nat} (hpos : 0 < n) (hn : n ≤ 2) (h : Stops (· == quote) input) :
    Reads (innerQuotes quote) (List.replicate n quote ++ input) (List.replicate n quote) input := by
  have hne : List.replicate n quote ≠ [] := by simp; omega
  refine (reads_takeWhile1 hne (by simp) h).bind ?_
  rw [if_pos (by simp; omega)]
  exact reads_pure _ input

theorem fails_innerQuotes {n : Nat} (hn : 3 ≤ n) (h : Stops (· == quote) input) :
    Fails (innerQuotes quote) (List.replicate n quote ++ input) := by
  have hne : List.replicate n quote ≠ [] := by simp; omega
  refine (reads_takeWhile1 hne (by simp) h).bind_fails ?_
  rw [if_neg (by simp; omega)]
  exact fails_failure input

/-- Where quotes stand they are all that can be read. -/
theorem blockPieces_quote (hquote : quote = '"' ∨ quote = '\'') (rest : List Char) :
    blockPieces quote (.ofList (quote :: rest)) = innerQuotes quote (.ofList (quote :: rest)) := by
  obtain ⟨hplain, hescape, hnewline⟩ := stops_quote hquote rest
  rw [blockPieces, (fails_plainRun hplain).orElse_eq, (fails_lineBreak hnewline).orElse_eq,
    (fails_hidden hescape).orElse_eq, (fails_escapedRun hescape).orElse_eq]

/-- Quotes before the closing ones are a longer run of quotes. -/
theorem quotes_append_closing (n : Nat) (quote : Char) (rest : List Char) :
    List.replicate n quote ++ quote :: quote :: quote :: rest =
      List.replicate (n + 3) quote ++ rest := by
  rw [← List.replicate_append_replicate, List.append_assoc]
  rfl

/-- The pieces of a text over several lines. -/
theorem readsPieces_block (hquote : quote = '"' ∨ quote = '\'')
    (hrest : Stops (· == quote) rest) :
    ReadsPieces (blockPieces quote) quote true (quote :: quote :: quote :: rest) where
  isQuote := hquote
  plain hne hrun hstops := (reads_plainRun hne hrun hstops).orElse
  quotes _ n input hpos hn hstops := by
    obtain ⟨m, rfl⟩ := Nat.exists_eq_add_of_lt hpos
    exact (blockPieces_quote hquote _).trans (reads_innerQuotes hpos hn hstops)
  piece input h := by
    have hstops := h.stops hquote input
    refine (fails_plainRun hstops.1).orElse ?_
    cases h with
    | lineFeed => exact (reads_lineBreak input).orElse
    | escaped hq hmark hreads =>
      subst hq
      refine (fails_lineBreak (stops_cons.2 rfl)).orElse ((fails_hiddenBreak hmark _).orElse ?_)
      exact (reads_escapedRun input (hreads input)).orElse
  fails {n} hn _ := by
    rw [quotes_append_closing]
    exact (blockPieces_quote hquote _).trans (fails_innerQuotes (Nat.le_add_left 3 n) hrest)
  stops_close := (stops_quote hquote _).1

end Parsers

section Forms

/-- A text is read from one line between quotes. -/
theorem reads_lineText (hquote : quote = '"' ∨ quote = '\'') (h : Inside quote false 0 cs written)
    (rest : List Char) :
    Reads (lineText quote) (quote :: (written ++ quote :: rest)) (String.ofList cs) rest := by
  obtain ⟨n, -, hzero, content, hcontent, runs, hruns, rfl⟩ :=
    h.reads (readsPieces_line hquote rest) (.plain (nofun : ∀ c ∈ [], _))
  rw [hzero rfl] at hcontent hruns
  refine (reads_char quote _).bind (hruns.many.bind ((reads_char quote rest).bind ?_))
  rw [← List.nil_append cs, ← hcontent, List.replicate_zero, List.append_nil]
  exact reads_pure _ rest

/-- Where a text has no line feed, what is written for it does not begin with an end of line. -/
theorem Inside.stops_newline (h : Inside quote block before cs written) (hline : '\n' ∉ cs)
    (hquote : quote = '"' ∨ quote = '\'') (rest : List Char) :
    Stops (fun c => c == '\n' || c == '\r') (written ++ quote :: rest) := by
  cases h with
  | nil => exact (stops_quote hquote rest).2.2
  | quote => exact (stops_quote hquote _).2.2
  | @plain before c cs written hbefore hplain =>
    rw [List.mem_cons, not_or] at hline
    refine stops_cons.2 (Bool.or_eq_false_iff.2 ⟨beq_eq_false_iff_ne.2 (Ne.symm hline.1), ?_⟩)
    refine beq_eq_false_iff_ne.2 fun hc => ?_
    rw [hc, isPlain_carriageReturn] at hplain
    cases hplain
  | piece hbefore hpiece =>
    cases hpiece with
    | lineFeed => exact absurd List.mem_cons_self hline
    | escaped => exact stops_cons.2 rfl

/-- A text is read from between three quotes, where an end of line may come first that does not
count. -/
theorem reads_blockText (hquote : quote = '"' ∨ quote = '\'') (h : Inside quote true 0 cs written)
    (hrest : Stops (· == quote) rest) {opening : List Char}
    (hopening : opening = ['\n'] ∨ opening = [] ∧ '\n' ∉ cs) :
    Reads (blockText quote)
      (quote :: quote :: quote :: (opening ++ (written ++ quote :: quote :: quote :: rest)))
      (String.ofList cs) rest := by
  obtain ⟨n, hn, -, content, hcontent, runs, hruns, rfl⟩ :=
    h.reads (readsPieces_block hquote hrest) (.plain (nofun : ∀ c ∈ [], _))
  refine (reads_chars [quote, quote, quote] _).bind ?_
  have hopened : ∃ found, Reads (Parser.optional newline)
      (opening ++ (written ++ quote :: quote :: quote :: rest)) found
      (written ++ quote :: quote :: quote :: rest) := by
    rcases hopening with rfl | ⟨rfl, hline⟩
    · exact ⟨_, (reads_char '\n' _).orElse.optional⟩
    · exact ⟨_, (fails_newline (h.stops_newline hline hquote _)).optional⟩
  obtain ⟨found, hfound⟩ := hopened
  refine hfound.discard.bind (hruns.many.bind ?_)
  rw [quotes_append_closing]
  refine (reads_takeWhile (by simp) hrest).bind ?_
  rw [if_neg (by simp; omega), List.drop_replicate, Nat.add_sub_cancel, hcontent]
  exact reads_pure _ rest

end Forms

section Escapes

theorem reads_hexDigit {n : Nat} (h : n < 16) (rest : List Char) :
    Reads (digit 16) (hexDigit n :: rest) n rest := by
  have hvalue : ∀ m < 16, digitValue? (hexDigit m) = some m := by decide
  refine (reads_any _ _).bind ?_
  simp only [hvalue n h, h, ↓reduceIte]
  exact reads_pure n rest

/-- A character of the first plane is read back from its code. -/
theorem piece_codeEscape (h : c.toNat < 65536) :
    Piece '"' block c (codeEscape c) := by
  refine .escaped rfl (by decide) fun rest => ?_
  refine (reads_char '\\' _).bind ((reads_any _ _).bind ?_)
  have hdigit (n : Nat) (rest : List Char) :
      Reads (digit 16) (hexDigit (n % 16) :: rest) (n % 16) rest :=
    reads_hexDigit (Nat.mod_lt n (by decide)) rest
  have hcode : Reads (digitsExactly 16 4) (hexDigit (c.toNat / 4096 % 16) ::
      hexDigit (c.toNat / 256 % 16) :: hexDigit (c.toNat / 16 % 16) :: hexDigit (c.toNat % 16) ::
      rest) ((((0 * 16 + c.toNat / 4096 % 16) * 16 + c.toNat / 256 % 16) * 16 +
        c.toNat / 16 % 16) * 16 + c.toNat % 16) rest := by
    exact .digitsExactly_succ (.digitsExactly_succ (.digitsExactly_succ (.digitsExactly_succ
      (reads_pure 0 _) (hdigit _ _)) (hdigit _ _)) (hdigit _ _)) (hdigit _ _)
  have hsum : (((0 * 16 + c.toNat / 4096 % 16) * 16 + c.toNat / 256 % 16) * 16 +
      c.toNat / 16 % 16) * 16 + c.toNat % 16 = c.toNat := by omega
  rw [hsum] at hcode
  have hvalid : c.toNat.isValidChar := c.valid
  refine hcode.bind ?_
  rw [charOfCode, if_pos hvalid, Char.ofNat_toNat]
  exact reads_pure c rest

/-- A control character is one of ASCII. -/
theorem toNat_lt_of_isControl (h : isControl c = true) : c.toNat < 128 := by
  simp only [isControl, Bool.or_eq_true, Bool.and_eq_true, decide_eq_true_eq, beq_iff_eq,
    Char.lt_def, UInt32.lt_iff_toNat_lt] at h
  have hspace : ' '.val.toNat = 32 := rfl
  rcases h with ⟨⟨hlt, -⟩, -⟩ | rfl
  · exact Nat.lt_trans hlt (by decide)
  · decide

/-- Between double quotes a character is plain or a piece of its own, unless it is a quote over
several lines with fewer than two before it. -/
theorem escapeIn_cases {quotes : Nat} (hother : ¬ (c = '"' ∧ block = true ∧ quotes < 2)) :
    isPlain '"' c = true ∧ escapeIn block quotes c = [c] ∨
      Piece '"' block c (escapeIn block quotes c) := by
  have hmarked {d mark : Char} (hmark : mark ∉ [' ', '\t', '\n', '\r'])
      (h : ∀ rest, Reads escape ('\\' :: mark :: rest) d rest) : Piece '"' block d ['\\', mark] :=
    .escaped rfl hmark h
  unfold escapeIn
  split
  · exact Or.inr (hmarked (by decide) fun _ => rfl)
  · exact Or.inr (hmarked (by decide) fun _ => rfl)
  · exact Or.inr (hmarked (by decide) fun _ => rfl)
  · exact Or.inr (hmarked (by decide) fun _ => rfl)
  · exact Or.inr (hmarked (by decide) fun _ => rfl)
  · split
    · next htrue => exact Or.inr (.lineFeed htrue)
    · exact Or.inr (hmarked (by decide) fun _ => rfl)
  · split
    · next hstays => exact absurd ⟨rfl, by simpa using hstays⟩ hother
    · exact Or.inr (hmarked (by decide) fun _ => rfl)
  · next hbackslash _ _ _ _ hline hquote =>
    split
    · next hcontrol =>
      exact Or.inr (piece_codeEscape (Nat.lt_trans (toNat_lt_of_isControl hcontrol) (by decide)))
    · next hcontrol =>
      have hshown := isShown_or_isBeyondAscii (Bool.eq_false_iff.2 hcontrol) hline
      have hplain : isPlain '"' c = true := by
        simp [isPlain, hshown, show c ≠ '"' from hquote, show c ≠ '\\' from hbackslash]
      exact Or.inl ⟨hplain, rfl⟩

/-- What is written between double quotes. The quotes that went before count over several lines
only. -/
theorem inside_escapeAll (block : Bool) {quotes : Nat} (h : quotes ≤ 2) (cs : List Char) :
    Inside '"' block (if block then quotes else 0) cs (escapeAll block quotes cs) := by
  have hbefore : ∀ n ≤ 2, (if block then n else 0) ≤ 2 := by
    intro n hn
    split <;> omega
  induction cs generalizing quotes with
  | nil => exact .nil (hbefore quotes h)
  | cons c cs ih =>
    rw [escapeAll]
    generalize hnext : (if c = '"' ∧ quotes < 2 then quotes + 1 else 0) = next
    have hnext_le : next ≤ 2 := by split at hnext <;> omega
    have hrest := ih hnext_le
    by_cases hstays : c = '"' ∧ block = true ∧ quotes < 2
    · obtain ⟨rfl, rfl, hlt⟩ := hstays
      rw [if_pos ⟨rfl, hlt⟩] at hnext
      subst hnext
      have hwritten : escapeIn true quotes '"' = ['"'] := by simp [escapeIn, hlt]
      rw [hwritten]
      exact .quote rfl hrest
    · have hzero : (if block then next else 0) = 0 := by
        cases block with
        | false => rfl
        | true =>
          show next = 0
          rw [← hnext]
          exact if_neg fun hc => hstays ⟨hc.1, rfl, hc.2⟩
      rw [hzero] at hrest
      rcases escapeIn_cases hstays with ⟨hplain, hwritten⟩ | hpiece
      · rw [hwritten]
        exact .plain (hbefore quotes h) hplain hrest
      · exact .piece (hbefore quotes h) hpiece hrest

theorem le_longestRun (c : Char) (before : Nat) (cs : List Char) :
    before ≤ longestRun c before cs := by
  induction cs generalizing before with
  | nil => exact Nat.le_refl before
  | cons d ds ih =>
    rw [longestRun]
    split
    · exact Nat.le_of_succ_le (ih (before + 1))
    · exact Nat.le_max_left _ _

/-- A text without control characters stands between single quotes as it is. -/
theorem inside_self (hcontrol : ∀ c ∈ cs, isControl c = false) (hline : block = true ∨ '\n' ∉ cs)
    (hquotes : longestRun '\'' before cs ≤ if block then 2 else 0) :
    Inside '\'' block before cs cs := by
  have htwo : (if block then 2 else 0) ≤ 2 := by split <;> decide
  have hbefore : before ≤ 2 := by
    have hrun := le_longestRun '\'' before cs
    omega
  induction cs generalizing before with
  | nil => exact .nil hbefore
  | cons c cs ih =>
    rw [longestRun] at hquotes
    have hcs : ∀ d ∈ cs, isControl d = false := fun d hd => hcontrol d (List.mem_cons_of_mem c hd)
    have hrest : block = true ∨ '\n' ∉ cs :=
      hline.imp_right fun h hmem => h (List.mem_cons_of_mem c hmem)
    split at hquotes
    · next hc =>
      subst hc
      have hrun := le_longestRun '\'' (before + 1) cs
      have hblock : block = true := by
        cases block with
        | true => rfl
        | false =>
          simp only [Bool.false_eq_true, ↓reduceIte] at hquotes
          omega
      exact .quote hblock (ih hcs hrest hquotes (by omega))
    · next hc =>
      have hmax := Nat.max_le.1 hquotes
      have hmore := ih hcs hrest hmax.2 (Nat.zero_le 2)
      by_cases hfeed : c = '\n'
      · subst hfeed
        exact .piece hbefore (.lineFeed (hline.resolve_right fun h => h List.mem_cons_self)) hmore
      · have hshown := isShown_or_isBeyondAscii (hcontrol c List.mem_cons_self) hfeed
        exact .plain hbefore (by simp [isPlain, hshown, hc]) hmore

end Escapes

section Texts

/-- A text on one line is not taken for one over several. -/
theorem fails_blockText_line (hquote : quote = '"' ∨ quote = '\'')
    (h : Inside quote false 0 cs written) (hrest : Stops (· == quote) rest) :
    Fails (blockText quote) (quote :: (written ++ quote :: rest)) := by
  refine (fails_chars fun hprefix => ?_).bind
  have hsecond := (List.cons_prefix_cons.1 hprefix).2
  cases h with
  | nil => exact hrest.not_begins [] (List.cons_prefix_cons.1 hsecond).2
  | quote h => exact nomatch h
  | plain hbefore hplain => exact ne_of_isPlain hplain (List.cons_prefix_cons.1 hsecond).1.symm
  | piece hbefore hpiece =>
    rw [List.append_assoc] at hsecond
    exact (hpiece.stops hquote _).2.not_begins [quote] hsecond

/-- What does not begin with the quote is no text between such quotes. -/
theorem fails_quoted (h : Stops (· == quote) input) :
    Fails (blockText quote) input ∧ Fails (lineText quote) input :=
  ⟨(fails_chars (h.not_begins _)).bind, (fails_char h).bind⟩

theorem stops_quotes (h : Stops (fun c => c == '"' || c == '\'') input)
    (hquote : quote = '"' ∨ quote = '\'') : Stops (· == quote) input := by
  rcases hquote with rfl | rfl
  · exact h.mono (by simp)
  · exact h.mono (by simp)

theorem fails_text (h : Stops (fun c => c == '"' || c == '\'') input) : Fails text input := by
  obtain ⟨hdoubles, hdouble⟩ := fails_quoted (stops_quotes h (Or.inl rfl))
  obtain ⟨hsingles, hsingle⟩ := fails_quoted (stops_quotes h (Or.inr rfl))
  exact hdoubles.orElse_fails (hdouble.orElse_fails (hsingles.orElse_fails hsingle))

/-- After a single quote only the forms with single quotes count. -/
theorem text_single (more : List Char) :
    text (.ofList ('\'' :: more)) =
      (blockText '\'' <|> lineText '\'') (.ofList ('\'' :: more)) := by
  have hdouble : Stops (· == '"') ('\'' :: more) := stops_cons.2 rfl
  rw [text, (fails_quoted hdouble).1.orElse_eq, (fails_quoted hdouble).2.orElse_eq]

/-- The forms in which a text may be written: on one line or over several, where the first line may
be left empty. -/
inductive Quoted (cs : List Char) : List Char → Prop
  | line {quote : Char} {written : List Char} (hquote : quote = '"' ∨ quote = '\'')
      (h : Inside quote false 0 cs written) : Quoted cs (quote :: (written ++ [quote]))
  | block {quote : Char} {opening written : List Char} (hquote : quote = '"' ∨ quote = '\'')
      (hopening : opening = ['\n'] ∨ opening = [] ∧ '\n' ∉ cs)
      (h : Inside quote true 0 cs written) :
      Quoted cs (quote :: quote :: quote :: (opening ++ (written ++ [quote, quote, quote])))

/-- A text is read from each of the forms. -/
theorem Quoted.reads (h : Quoted cs written)
    (hrest : Stops (fun c => c == '"' || c == '\'') rest) :
    Reads text (written ++ rest) (String.ofList cs) rest := by
  cases h with
  | @line quote written hquote h =>
    have hafter := stops_quotes hrest hquote
    have hblock := fails_blockText_line hquote h hafter
    have hline := reads_lineText hquote h rest
    rw [List.cons_append, List.append_assoc, List.singleton_append]
    rcases hquote with rfl | rfl
    · exact hblock.orElse hline.orElse
    · exact (text_single _).trans (hblock.orElse hline)
  | @block quote opening written hquote hopening h =>
    have hblock := reads_blockText hquote h (stops_quotes hrest hquote) hopening
    simp only [List.cons_append, List.append_assoc, List.nil_append]
    rcases hquote with rfl | rfl
    · exact hblock.orElse
    · exact (text_single _).trans hblock.orElse

/-- A text between double quotes on one line. -/
theorem quoted_line (s : String) :
    Quoted s.toList ("\"" ++ String.ofList (escapeAll false 0 s.toList) ++ "\"").toList := by
  simpa using Quoted.line (Or.inl rfl) (inside_escapeAll false (Nat.zero_le 2) s.toList)

/-- A text between quotes over several lines, which begins on a line of its own if it has a line
feed. -/
theorem quoted_block {s : String} (hquote : quote = '"' ∨ quote = '\'')
    (h : Inside quote true 0 s.toList written) :
    Quoted s.toList (String.ofList [quote, quote, quote] ++
      (if s.toList.contains '\n' then "\n" else "") ++ String.ofList written ++
      String.ofList [quote, quote, quote]).toList := by
  split
  · simpa using Quoted.block hquote (.inl rfl) h
  · next hfeed =>
    have hnone : '\n' ∉ s.toList := by simpa using hfeed
    simpa using Quoted.block hquote (.inr ⟨rfl, hnone⟩) h

/-- A text is written in one of the forms. -/
theorem quoted_renderText (s : String) : Quoted s.toList (renderText s).toList := by
  have hdoubles := quoted_block (Or.inl rfl) (inside_escapeAll true (Nat.zero_le 2) s.toList)
  simp only [renderText]
  split
  · exact quoted_line s
  · split
    · next h =>
      obtain ⟨⟨hcontrol, hquotes⟩, hfeed⟩ : ((∀ c ∈ s.toList, isControl c = false) ∧
          longestRun '\'' 0 s.toList = 0) ∧ '\n' ∉ s.toList := by simpa using h
      have hself : Inside '\'' false 0 s.toList s.toList :=
        inside_self hcontrol (Or.inr hfeed) (Nat.le_of_eq hquotes)
      simpa using Quoted.line (Or.inr rfl) hself
    · split
      · exact hdoubles
      · split
        · next h =>
          obtain ⟨hcontrol, hquotes⟩ : (∀ c ∈ s.toList, isControl c = false) ∧
              longestRun '\'' 0 s.toList ≤ 2 := by simpa using h
          have hself : Inside '\'' true 0 s.toList s.toList :=
            inside_self hcontrol (Or.inl rfl) hquotes
          have hsingles := quoted_block (Or.inr rfl) hself
          rwa [String.ofList_toList] at hsingles
        · split
          · next h => rw [if_pos h] at hdoubles; exact hdoubles
          · exact quoted_line s

/-- Every text is read back. -/
theorem reads_renderText (s : String) (hrest : Stops (fun c => c == '"' || c == '\'') rest) :
    Reads text ((renderText s).toList ++ rest) s rest := by
  have hreads := (quoted_renderText s).reads hrest
  rwa [String.ofList_toList] at hreads

end Texts

end ControlLoop.Toml
