import ControlLoop.Proofs.Toml.Value

/-!
# Documents in TOML read back

A document is its lines with line feeds between them. A section is a line with
its header, a line for each of its assignments and an empty one. Where the names
of the sections and the keys within each section are distinct plain words, what
is read from the document are these sections, the latest first.
-/

set_option autoImplicit false

namespace ControlLoop.Toml

open ControlLoop.Parser

variable {key : String} {v : ConfigValue} {l : Line} {input mid rest written : List Char}

/-- A character of a plain word. -/
def isBare (c : Char) : Bool := c.isAlphanum || c == '_' || c == '-'

/-- A plain word, which needs no quotes as a key. -/
def BareKey (key : String) : Prop := key ≠ "" ∧ key.toList.all isBare = true

instance (key : String) : Decidable (BareKey key) := inferInstanceAs (Decidable (_ ∧ _))

/-- The text is at the end of a line. -/
def LineEnds (rest : List Char) : Prop := ∀ c ∈ rest.head?, c = '\n'

theorem LineEnds.stops (h : LineEnds rest) {test : Char → Bool} (htest : test '\n' = false) :
    Stops test rest := by
  intro c hc
  rw [h c hc]
  exact htest

theorem LineEnds.closes (h : LineEnds rest) : Closes rest := by
  intro c hc
  rw [h c hc]
  decide

section Keys

/-- A character that another part of a document begins with, or its first mark. -/
def isOutside (c : Char) : Bool := [' ', '\t', '"', '\'', '[', '\uFEFF'].contains c

theorem BareKey.stops (h : BareKey key) (rest : List Char) :
    Stops isOutside (key.toList ++ rest) := by
  have hne : key.toList ≠ [] := by simpa using h.1
  obtain ⟨c, cs, hkey⟩ := List.exists_cons_of_ne_nil hne
  have hc : isBare c = true := List.all_eq_true.1 h.2 c (by simp [hkey])
  rw [hkey]
  exact stops_cons.2 (contains_eq_false hc rfl)

theorem reads_simpleKey (h : BareKey key) (hrest : Stops isBare rest) :
    Reads simpleKey (key.toList ++ rest) key rest := by
  have hstart := h.stops rest
  have hdouble : Fails (lineText '"') (key.toList ++ rest) :=
    (fails_quoted (hstart.mono (by simp [isOutside]))).2
  have hsingle : Fails (lineText '\'') (key.toList ++ rest) :=
    (fails_quoted (hstart.mono (by simp [isOutside]))).2
  have hne : key.toList ≠ [] := by simpa using h.1
  refine (hdouble.orElse_fails hsingle).orElse ?_
  refine (reads_takeWhile1 hne (List.all_eq_true.1 h.2) hrest).bind ?_
  rw [String.ofList_toList]
  exact reads_pure key rest

/-- A plain word is read as a key of one part. -/
theorem reads_splitKey (h : BareKey key) (run rest : List Char) (hrun : ∀ c ∈ run, c = ' ')
    (hbare : Stops isBare (run ++ rest)) (hrest : Stops (fun c => c == ' ' || c == '\t') rest)
    (hdot : Stops (· == '.') rest) :
    Reads splitKey (key.toList ++ (run ++ rest)) ([], key) rest := by
  have hopen : Reads blanks (key.toList ++ (run ++ rest)) () (key.toList ++ (run ++ rest)) :=
    reads_no_blanks ((h.stops _).mono (by simp +contextual [isOutside]))
  have hpart : Reads (do let k ← simpleKey; blanks; return k) (key.toList ++ (run ++ rest)) key
      rest :=
    (reads_simpleKey h hbare).bind ((reads_blanks hrun hrest).bind (reads_pure key rest))
  have hparts : Reads (sepBy1 (do let k ← simpleKey; blanks; return k)
      (do Parser.char '.'; blanks)) (key.toList ++ (run ++ rest)) [key] rest :=
    ReadsAll.sepBy1 hpart (.stop (fails_char hdot).bind.discard.bind)
  have hkeys : Reads dottedKey (key.toList ++ (run ++ rest)) [key] rest :=
    hopen.bind (hparts.bind (reads_pure [key] rest))
  exact hkeys.bind (reads_pure ([], key) rest)

/-- At the end of a line there is no key. -/
theorem fails_splitKey (hrest : LineEnds rest) : Fails splitKey rest := by
  have hdouble : Fails (lineText '"') rest := (fails_quoted (hrest.stops rfl)).2
  have hsingle : Fails (lineText '\'') rest := (fails_quoted (hrest.stops rfl)).2
  have hword : Fails (takeWhile1 isBare) rest := fails_takeWhile1 (hrest.stops rfl)
  have hkey : Fails simpleKey rest := (hdouble.orElse_fails hsingle).orElse_fails hword.bind
  have hkeys : Fails dottedKey rest :=
    (reads_no_blanks (hrest.stops rfl)).bind_fails hkey.bind.bind.bind
  exact hkeys.bind

end Keys

section Lines

/-- The text of a line is read back up to the end of the line. -/
structure WritesLine (l : Line) (written : List Char) : Prop where
  opens : Stops (· == '\uFEFF') written
  reads : ∀ {rest}, LineEnds rest → Reads line (written ++ rest) l rest

theorem reads_line (hopen : Stops (fun c => c == ' ' || c == '\t') input)
    (hcontent : Reads (header <|> (Line.assignment <$> assignment (value (nestingLimit - 1)))
      <|> pure .blank) input l rest) (hrest : LineEnds rest) : Reads line input l rest := by
  refine (reads_no_blanks hopen).bind (hcontent.bind ?_)
  refine (reads_no_blanks (hrest.stops rfl)).bind ?_
  have hcomment : Fails comment rest := (fails_char (hrest.stops rfl)).bind
  exact hcomment.optional.discard.bind (reads_pure l rest)

/-- Only a header begins with a bracket. -/
theorem fails_header (h : Stops (· == '[') input) : Fails header input := by
  have hword : Fails (word "[[") input := fails_word (h.not_begins "[".toList)
  exact hword.bind.orElse_fails (fails_char h).bind

theorem writesLine_blank : WritesLine .blank [] where
  opens := stops_nil _
  reads {rest} hrest := by
    have hassignment : Fails (Line.assignment <$> assignment (value (nestingLimit - 1))) rest :=
      (fails_splitKey hrest).bind.map _
    refine reads_line (hrest.stops rfl) ?_ hrest
    exact (fails_header (hrest.stops rfl)).orElse (hassignment.orElse (reads_pure _ rest))

theorem writesLine_header (h : BareKey key) :
    WritesLine (.header ([], key)) ('[' :: (key.toList ++ [']'])) where
  opens := stops_cons.2 rfl
  reads {rest} hrest := by
    have hbracket : Stops (· == '[') (key.toList ++ ']' :: rest) :=
      (h.stops _).mono (by simp [isOutside])
    have hword : Fails (word "[[") ('[' :: (key.toList ++ ']' :: rest)) :=
      fails_word fun hprefix => hbracket.not_begins [] (List.cons_prefix_cons.1 hprefix).2
    have hkey := reads_splitKey h [] (']' :: rest) nofun (stops_cons.2 rfl)
      (stops_cons.2 rfl) (stops_cons.2 rfl)
    have hheader : Reads header ('[' :: (key.toList ++ ']' :: rest)) (.header ([], key)) rest :=
      hword.bind.orElse ((reads_char '[' _).bind (hkey.bind ((reads_char ']' rest).bind
        (reads_pure _ rest))))
    rw [List.cons_append, List.append_assoc, List.singleton_append]
    exact reads_line (stops_cons.2 rfl) hheader.orElse hrest

theorem writesLine_assignment (h : BareKey key) {text : String}
    (hv : WritesValue (nestingLimit - 1) v text) :
    WritesLine (.assignment (([], key), v)) (key.toList ++ ' ' :: '=' :: ' ' :: text.toList) where
  opens := (h.stops _).mono (by simp [isOutside])
  reads {rest} hrest := by
    have hkey := reads_splitKey h [' '] ('=' :: ' ' :: (text.toList ++ rest)) (by simp)
      (stops_cons.2 rfl) (stops_cons.2 rfl) (stops_cons.2 rfl)
    have hblanks : Reads blanks ([' '] ++ (text.toList ++ rest)) () (text.toList ++ rest) :=
      reads_blanks (by simp) ((hv.opens rest).mono (by simp +contextual [isLayout]))
    have hassignment : Reads (assignment (value (nestingLimit - 1)))
        (key.toList ++ ' ' :: '=' :: ' ' :: (text.toList ++ rest)) (([], key), v) rest :=
      hkey.bind ((reads_char '=' _).bind (hblanks.bind ((hv.reads hrest.closes).bind
        (reads_pure _ rest))))
    have hopen := h.stops (' ' :: '=' :: ' ' :: (text.toList ++ rest))
    rw [List.append_assoc, List.cons_append, List.cons_append, List.cons_append]
    refine reads_line (hopen.mono (by simp +contextual [isOutside])) ?_ hrest
    refine (fails_header (hopen.mono (by simp [isOutside]))).orElse ?_
    exact (hassignment.map Line.assignment).orElse

end Lines

section Documents

variable {ls : List Line} {ts : List (List Char)}

/-- Lines, each after a line feed. -/
def feeds (ts : List (List Char)) : List Char := ts.flatMap fun t => '\n' :: t

theorem lineEnds_feeds (ts : List (List Char)) : LineEnds (feeds ts) := by
  cases ts <;> simp [feeds, LineEnds]

/-- Lines are read up to the end of the last one. -/
theorem readsAll_lines (h : List.Forall₂ WritesLine ls ts) :
    ReadsAll (do discard newline; line) (feeds ts) ls [] := by
  induction h with
  | nil => exact .stop (fails_newline (stops_nil _)).discard.bind
  | @cons l t ls ts hl _ ih =>
    have hnewline : Reads newline ('\n' :: (t ++ feeds ts)) () (t ++ feeds ts) :=
      (reads_char '\n' _).orElse
    refine .step (hnewline.discard.bind (hl.reads (lineEnds_feeds ts))) ?_ ih
    simp [feeds]

/-- The lines of a document that begins with the given line. -/
theorem reads_lines {t : List Char} (hl : WritesLine l t) (h : List.Forall₂ WritesLine ls ts) :
    Reads lines (t ++ feeds ts) (l :: ls) [] := by
  have hmark : Stops (· == '\uFEFF') (t ++ feeds ts) := by
    cases t with
    | nil => exact (lineEnds_feeds ts).stops rfl
    | cons c t => simpa using hl.opens
  exact (fails_char hmark).optional.discard.bind
    (ReadsAll.sepBy1 (hl.reads (lineEnds_feeds ts)) (readsAll_lines h))

/-- The assignment of a value to a key. -/
def entryAssignment (e : String × ConfigValue) : Entries.Assignment := (([], e.1), e.2)

/-- The lines of a section. -/
def sectionLines (s : SectionText) : List Line :=
  .header ([], s.1) :: ((s.2.map fun e => .assignment (entryAssignment e)) ++ [.blank])

/-- The text is that of the section, and it is its lines. -/
structure WritesSection (s : SectionText) (text : String) : Prop where
  render_eq : renderSection? s = some text
  lines : ∃ ts, List.Forall₂ WritesLine (sectionLines s) ts ∧ '\n' :: text.toList = feeds ts

/-- What a document can hold: sections with distinct names, and in each of them values for distinct
keys. -/
structure Writable (sections : List SectionText) : Prop where
  names : ∀ s ∈ sections, BareKey s.1
  distinct : (sections.map (·.1)).Nodup
  keys : ∀ s ∈ sections, ∀ e ∈ s.2, BareKey e.1
  distinct_keys : ∀ s ∈ sections, (s.2.map (·.1)).Nodup
  values : ∀ s ∈ sections, ∀ e ∈ s.2, Storable (nestingLimit - 1) e.2

theorem feeds_concat_nil (ts : List (List Char)) :
    feeds (ts ++ [[]]) = '\n' :: ts.flatMap (· ++ ['\n']) := by
  induction ts with
  | nil => rfl
  | cons t ts ih =>
    have hfeeds : feeds (t :: ts ++ [[]]) = '\n' :: (t ++ feeds (ts ++ [[]])) := rfl
    rw [hfeeds, ih, List.flatMap_cons, List.append_assoc]
    rfl

/-- The line of an assignment, with its end. -/
structure WritesEntry (e : String × ConfigValue) (text : String) : Prop where
  render_eq : (do return e.1 ++ " = " ++ (← renderValue? e.2) ++ "\n") = some text
  line : ∃ t, WritesLine (.assignment (entryAssignment e)) t ∧ text.toList = t ++ ['\n']

theorem exists_writesEntry {e : String × ConfigValue} (hkey : BareKey e.1)
    (h : Storable (nestingLimit - 1) e.2) : ∃ text, WritesEntry e text := by
  obtain ⟨text, htext⟩ := h.exists_writes
  refine ⟨e.1 ++ " = " ++ text ++ "\n", ?_, _, writesLine_assignment hkey htext, ?_⟩
  · rw [htext.render_eq]
    rfl
  · simp

theorem exists_lines_of_entries {entries : List (String × ConfigValue)} {texts : List String}
    (h : List.Forall₂ WritesEntry entries texts) : ∃ ts,
      List.Forall₂ WritesLine (entries.map fun e => .assignment (entryAssignment e)) ts ∧
        (String.join texts).toList = ts.flatMap (· ++ ['\n']) := by
  induction h with
  | nil => exact ⟨[], .nil, rfl⟩
  | @cons e text entries texts he _ ih =>
    obtain ⟨t, ht, htext⟩ := he.line
    obtain ⟨ts, hts, hjoin⟩ := ih
    refine ⟨t :: ts, .cons ht hts, ?_⟩
    rw [List.flatMap_cons, ← hjoin, ← htext]
    simp

theorem mapM_of_forall₂ {α β : Type} {f : α → Option β} {as : List α} {bs : List β}
    (h : List.Forall₂ (fun a b => f a = some b) as bs) : as.mapM f = some bs := by
  induction h with
  | nil => rfl
  | cons hb _ ih => simp [List.mapM_cons, hb, ih]

theorem exists_writesSection {s : SectionText} (hname : BareKey s.1)
    (h : ∀ e ∈ s.2, ∃ text, WritesEntry e text) : ∃ text, WritesSection s text := by
  obtain ⟨texts, htexts⟩ := exists_forall₂ h
  obtain ⟨ts, hts, hjoin⟩ := exists_lines_of_entries htexts
  refine ⟨"[" ++ s.1 ++ "]\n" ++ String.join texts, ?_,
    ('[' :: (s.1.toList ++ [']'])) :: (ts ++ [[]]), ?_, ?_⟩
  · rw [renderSection?, mapM_of_forall₂ (htexts.imp fun _ _ h => h.render_eq)]
    rfl
  · exact .cons (writesLine_header hname)
      (List.rel_append hts (.cons writesLine_blank .nil))
  · have hfeeds : feeds (('[' :: (s.1.toList ++ [']'])) :: (ts ++ [[]])) =
        '\n' :: '[' :: (s.1.toList ++ [']'] ++ feeds (ts ++ [[]])) := rfl
    rw [hfeeds, feeds_concat_nil, ← hjoin]
    simp

/-- The lines of all sections. -/
theorem exists_lines_of_sections {ss : List SectionText} {texts : List String}
    (h : List.Forall₂ WritesSection ss texts) : ∃ ts,
      List.Forall₂ WritesLine (ss.flatMap sectionLines) ts ∧
        feeds (texts.map String.toList) = feeds ts := by
  induction h with
  | nil => exact ⟨[], .nil, rfl⟩
  | @cons s text ss texts hs _ ih =>
    obtain ⟨ts, hts, htext⟩ := hs.lines
    obtain ⟨more, hmore, hjoin⟩ := ih
    refine ⟨ts ++ more, List.rel_append hts hmore, ?_⟩
    have happend : feeds (ts ++ more) = feeds ts ++ feeds more := List.flatMap_append
    rw [happend, ← htext, ← hjoin]
    rfl

theorem intercalate_cons_eq_feeds (t : List Char) (ts : List (List Char)) :
    ['\n'].intercalate (t :: ts) = t ++ feeds ts := by
  induction ts generalizing t with
  | nil => simp [feeds]
  | cons u ts ih =>
    rw [List.intercalate_cons_cons, ih]
    simp [feeds]

end Documents

section Tables

variable {entries : Entries}

theorem get?_eq_none (h : ∀ e ∈ entries, key ≠ e.1) : entries.get? key = none := by
  rw [Entries.get?, List.lookup_eq_none_iff]
  exact fun e he => bne_iff_ne.2 (h e he)

/-- A new key comes before the others. -/
theorem set_eq_cons (h : ∀ e ∈ entries, key ≠ e.1) (node : Node) :
    entries.set key node = (key, node) :: entries := by
  rw [Entries.set, List.filter_eq_self.2]
  exact fun e he => bne_iff_ne.2 (h e he).symm

/-- New keys are given their values one after the other, the latest first. -/
theorem assignAll?_eq {new : List (String × ConfigValue)} (hdistinct : (new.map (·.1)).Nodup)
    (hnew : ∀ e ∈ new, ∀ f ∈ entries, e.1 ≠ f.1) :
    Entries.assignAll? entries (new.map entryAssignment) =
      some ((new.map fun e => (e.1, .value e.2)).reverse ++ entries) := by
  induction new generalizing entries with
  | nil => rfl
  | cons e new ih =>
    have he := hnew e List.mem_cons_self
    have hassign : Entries.assign? [] e.1 e.2 false entries [] =
        some ((e.1, .value e.2) :: entries) := by
      rw [Entries.assign?, Entries.define?, get?_eq_none he, set_eq_cons he]
      rfl
    rw [List.map_cons, List.nodup_cons] at hdistinct
    have hrest : ∀ d ∈ new, ∀ f ∈ (e.1, Node.value e.2) :: entries, d.1 ≠ f.1 := by
      intro d hd f hf
      rcases List.mem_cons.1 hf with rfl | hf
      · exact fun heq => hdistinct.1 (List.mem_map.2 ⟨d, hd, heq⟩)
      · exact hnew d (List.mem_cons_of_mem e hd) f hf
    have hstep : Entries.assignAll? entries ((e :: new).map entryAssignment) =
        (Entries.assign? [] e.1 e.2 false entries []).bind fun es =>
          Entries.assignAll? es (new.map entryAssignment) := rfl
    rw [hstep, hassign, Option.bind_some, ih hdistinct.2 hrest]
    simp

/-- The table of a section under construction. -/
def sectionNode (s : SectionText) : String × Node :=
  (s.1, .table false false (s.2.map fun e => (e.1, .value e.2)).reverse)

/-- A section as it is read. -/
def readSection (s : SectionText) : Section := ⟨([], s.1), false, s.2.map entryAssignment⟩

theorem sections_assignments (assignments : List Entries.Assignment) (ls : List Line) :
    sections (assignments.map .assignment ++ .blank :: ls) =
      (assignments ++ (sections ls).1, (sections ls).2) := by
  induction assignments with
  | nil => rfl
  | cons a as ih => simp [sections, ih]

theorem sections_flatMap (ss : List SectionText) :
    sections (ss.flatMap sectionLines) = ([], ss.map readSection) := by
  induction ss with
  | nil => rfl
  | cons s ss ih =>
    have hlines : (s :: ss).flatMap sectionLines = .header ([], s.1) ::
        ((s.2.map entryAssignment).map .assignment ++ .blank :: ss.flatMap sectionLines) := by
      simp [sectionLines]
    rw [hlines, sections, sections_assignments, ih, List.append_nil]
    rfl

/-- A document is read as the lines of its sections. -/
theorem exists_parse?_lines {ss : List SectionText} {texts : List String}
    (h : List.Forall₂ WritesSection ss texts) : ∃ ls,
      lines.parse? ("\n".intercalate texts) = some ls ∧ sections ls = ([], ss.map readSection) := by
  obtain ⟨ts, hts, hfeeds⟩ := exists_lines_of_sections h
  cases h with
  | nil => exact ⟨[.blank], (reads_lines writesLine_blank .nil).parse?, rfl⟩
  | @cons s text ss texts hs _ =>
    refine ⟨(s :: ss).flatMap sectionLines, ?_, sections_flatMap (s :: ss)⟩
    cases hts with
    | @cons l t ls ts hl hls =>
      have htext : ("\n".intercalate (text :: texts)).toList = t ++ feeds ts := by
        rw [String.toList_intercalate, List.map_cons]
        exact (intercalate_cons_eq_feeds _ _).trans (List.cons.inj hfeeds).2
      refine Reads.parse? ?_
      rw [htext]
      exact reads_lines hl hls

theorem addTo?_eq {s : SectionText} (hdistinct : (s.2.map (·.1)).Nodup)
    (hnew : ∀ e ∈ entries, s.1 ≠ e.1) :
    (readSection s).addTo? entries = some (sectionNode s :: entries) := by
  have hopen : (readSection s).addTo? entries =
      Entries.openTable? (s.2.map entryAssignment) s.1 entries := rfl
  have hassign := @assignAll?_eq [] s.2 hdistinct fun _ _ => nofun
  rw [List.append_nil] at hassign
  rw [hopen, Entries.openTable?, get?_eq_none hnew]
  show (Entries.assignAll? [] (s.2.map entryAssignment)).bind _ = _
  rw [hassign, Option.bind_some, set_eq_cons hnew]
  rfl

/-- Sections with new names are added one after the other, the latest first. -/
theorem foldlM_addTo? {ss : List SectionText} (hdistinct : (ss.map (·.1)).Nodup)
    (hkeys : ∀ s ∈ ss, (s.2.map (·.1)).Nodup) (hnew : ∀ s ∈ ss, ∀ e ∈ entries, s.1 ≠ e.1) :
    (ss.map readSection).foldlM (fun entries s => s.addTo? entries) entries =
      some ((ss.map sectionNode).reverse ++ entries) := by
  induction ss generalizing entries with
  | nil => rfl
  | cons s ss ih =>
    rw [List.map_cons, List.nodup_cons] at hdistinct
    have hrest : ∀ d ∈ ss, ∀ e ∈ sectionNode s :: entries, d.1 ≠ e.1 := by
      intro d hd e he
      rcases List.mem_cons.1 he with rfl | he
      · exact fun heq => hdistinct.1 (List.mem_map.2 ⟨d, hd, heq⟩)
      · exact hnew d (List.mem_cons_of_mem s hd) e he
    have hadd := addTo?_eq (hkeys s List.mem_cons_self) (hnew s List.mem_cons_self)
    rw [List.map_cons, List.foldlM_cons, hadd, Option.bind_eq_bind, Option.bind_some,
      ih hdistinct.2 (fun d hd => hkeys d (List.mem_cons_of_mem s hd)) hrest]
    simp

theorem entryValues_eq_map (entries : List (String × Node)) :
    entryValues entries = entries.map fun e => (e.1, e.2.toValue) := by
  induction entries with
  | nil => rfl
  | cons e entries ih => rw [entryValues, ih, List.map_cons]

/-- The entry of a section in the table of the document. -/
def sectionEntry (s : SectionText) : String × ConfigValue := (s.1, .table s.2.reverse)

theorem toValue_sectionNode (s : SectionText) : (sectionNode s).2.toValue = .table s.2.reverse := by
  simp [sectionNode, Node.toValue, entryValues_eq_map, Function.comp_def]

/-- What is written in a document is read back from it, and the latest comes first. -/
theorem parse?_render? {ss : List SectionText} (h : Writable ss) :
    ∃ document, render? ss = some document ∧
      parse? document = some (.table (ss.map sectionEntry).reverse) := by
  have hentries : ∀ s ∈ ss, ∃ text, WritesSection s text := fun s hs =>
    exists_writesSection (h.names s hs) fun e he =>
      exists_writesEntry (h.keys s hs e he) (h.values s hs e he)
  obtain ⟨texts, htexts⟩ := exists_forall₂ hentries
  refine ⟨"\n".intercalate texts, ?_, ?_⟩
  · rw [render?, mapM_of_forall₂ (htexts.imp fun _ _ hs => hs.render_eq)]
    rfl
  · obtain ⟨ls, hls, hsections⟩ := exists_parse?_lines htexts
    have hfold := @foldlM_addTo? [] ss h.distinct h.distinct_keys fun _ _ => nofun
    rw [List.append_nil] at hfold
    have hvalues : entryValues (ss.map sectionNode).reverse = (ss.map sectionEntry).reverse := by
      rw [entryValues_eq_map, List.map_reverse, List.map_map]
      congr 1
      exact List.map_congr_left fun s _ => congrArg (Prod.mk s.1) (toValue_sectionNode s)
    have hrest : parse? ("\n".intercalate texts) =
        ((ss.map readSection).foldlM (fun es (s : Section) => s.addTo? es) []).bind
          fun all => some (.table (entryValues all)) := by
      rw [parse?, hls]
      simp only [Option.bind_eq_bind, Option.bind_some, hsections]
      rfl
    rw [hrest, hfold, Option.bind_some, hvalues]

end Tables

end ControlLoop.Toml
