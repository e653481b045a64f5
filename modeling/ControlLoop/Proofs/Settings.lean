import ControlLoop.Proofs.FieldPath
import ControlLoop.Proofs.Toml.Document
import ControlLoop.Settings.File

/-!
# Rendered settings load back

Settings that were read from a document have paths that dotted notation can
tell. Rendered settings name every section and every field, so nothing that is
read back from them is a default. This holds as long as the longest sleep is an
integer that TOML can hold. Beyond that the settings cannot be written, the
text is empty, and an empty file stands for the defaults.
-/

set_option autoImplicit false

namespace ControlLoop

open ConfigValue

section Decoding

variable {form : ConfigNotation} {value : ConfigValue}

theorem plain_of_path? {path : FieldPath} (h : (text? value).map FieldPath.parse = some path) :
    path.Plain := by
  obtain ⟨text, -, rfl⟩ := Option.map_eq_some_iff.1 h
  exact FieldPath.plain_parse text

theorem EffectsSettings.plain_default :
    ∀ path ∈ EffectsSettings.default.knownInconsistencies, path.Plain := by decide

theorem exists_of_mem_mapM {α β : Type} {f : α → Option β} {as : List α} {bs : List β}
    (h : as.mapM f = some bs) : ∀ b ∈ bs, ∃ a, f a = some b := by
  induction as generalizing bs with
  | nil =>
    cases h
    exact nofun
  | cons a as ih =>
    rw [List.mapM_cons, Option.bind_eq_bind, Option.bind_eq_some_iff] at h
    obtain ⟨b, hb, h⟩ := h
    rw [Option.bind_eq_bind, Option.bind_eq_some_iff] at h
    obtain ⟨rest, hrest, h⟩ := h
    cases h
    exact List.forall_mem_cons.2 ⟨⟨a, hb⟩, ih hrest⟩

theorem exists_of_mem_list? {α : Type} {read? : ConfigValue → Option α} {as : List α}
    (h : list? read? value = some as) : ∀ a ∈ as, ∃ v, read? v = some a := by
  cases value with
  | list items => exact exists_of_mem_mapM h
  | _ => cases h

/-- A field has a property that its default has and all that is read. -/
theorem of_field? {α : Type} {P : α → Prop} {entries : List (String × ConfigValue)} {name : String}
    {default a : α} {read? : ConfigValue → Option α}
    (h : field? entries name default read? = some a) (hdefault : P default)
    (hread : ∀ {v a}, read? v = some a → P a) : P a := by
  rw [field?] at h
  split at h
  · exact hread h
  · exact Option.some.inj h ▸ hdefault

/-- The fields known to be dropped are paths with plain keys, whether they are given or not. -/
theorem EffectsSettings.plain_of_ofConfig? {s : EffectsSettings}
    (h : EffectsSettings.ofConfig? form value = some s) :
    ∀ path ∈ s.knownInconsistencies, path.Plain := by
  simp only [EffectsSettings.ofConfig?, Option.bind_eq_bind, Option.bind_eq_some_iff] at h
  obtain ⟨entries, -, seconds, -, paths, hpaths, hs⟩ := h
  cases hs
  refine of_field? (P := fun paths => ∀ path ∈ paths, path.Plain) hpaths plain_default
    fun hread path hpath => ?_
  obtain ⟨v, hv⟩ := exists_of_mem_list? hread path hpath
  exact plain_of_path? hv

theorem Settings.plain_of_ofConfig? {s : Settings} (h : Settings.ofConfig? form value = some s) :
    ∀ path ∈ s.effects.knownInconsistencies, path.Plain := by
  simp only [Settings.ofConfig?, Option.bind_eq_bind, Option.bind_eq_some_iff] at h
  obtain ⟨entries, -, effects, heffects, batching, -, persistence, -, hs⟩ := h
  cases hs
  exact of_field? (P := fun e => ∀ path ∈ e.knownInconsistencies, path.Plain) heffects
    EffectsSettings.plain_default EffectsSettings.plain_of_ofConfig?

end Decoding

section Sections

variable {α : Type} {key name : String} {value : ConfigValue} {default : α}
  {read? : ConfigValue → Option α} (form : ConfigNotation) (entries : List (String × ConfigValue))

theorem field?_self : field? ((name, value) :: entries) name default read? = read? value := by
  rw [field?, List.lookup_cons_self]

theorem field?_of_ne (h : name ≠ key) :
    field? ((key, value) :: entries) name default read? = field? entries name default read? := by
  rw [field?, field?, List.lookup_cons, beq_eq_false_iff_ne.2 h]

theorem EffectsSettings.ofConfig?_table :
    EffectsSettings.ofConfig? form (.table entries) =
      (field? entries "keepalive_secs" EffectsSettings.default.keepaliveSeconds natural?).bind
        fun seconds => (field? entries "known_inconsistencies"
          EffectsSettings.default.knownInconsistencies
          (list? fun v => (text? v).map FieldPath.parse)).bind fun paths => some ⟨seconds, paths⟩ :=
  rfl

theorem BatchingSettings.ofConfig?_table :
    BatchingSettings.ofConfig? form (.table entries) =
      (field? entries "error_delays" BatchingSettings.default.errorDelays (list? double?)).bind
        fun delays => some ⟨delays⟩ :=
  rfl

theorem PersistenceSettings.ofConfig?_table :
    PersistenceSettings.ofConfig? form (.table entries) =
      (field? entries "progress_storage" PersistenceSettings.default.place
        fun v => (name? form v).bind MarkerPlace.ofName?).bind
        fun place => (field? entries "status_name" PersistenceSettings.default.statusName
          text?).bind
        fun status => (field? entries "annotations_prefix"
          PersistenceSettings.default.annotationsPrefix text?).bind
        fun domain => some ⟨place, status, domain⟩ :=
  rfl

theorem Settings.ofConfig?_table :
    Settings.ofConfig? form (.table entries) =
      (field? entries "effects" EffectsSettings.default (EffectsSettings.ofConfig? form)).bind
        fun effects => (field? entries "batching" BatchingSettings.default
          (BatchingSettings.ofConfig? form)).bind
        fun batching => (field? entries "persistence" PersistenceSettings.default
          (PersistenceSettings.ofConfig? form)).bind
        fun persistence => some ⟨effects, batching, persistence⟩ :=
  rfl

/-- A list is read item by item. -/
theorem list?_map {write : α → ConfigValue} {as : List α} (h : ∀ a ∈ as, read? (write a) = some a) :
    list? read? (.list (as.map write)) = some as := by
  have hread : List.Forall₂ (fun v a => read? v = some a) (as.map write) as := by
    rw [List.forall₂_map_left_iff, List.forall₂_same]
    exact h
  exact Toml.mapM_of_forall₂ hread

theorem MarkerPlace.ofName?_name (place : MarkerPlace) :
    MarkerPlace.ofName? place.name = some place := by
  cases place <;> rfl

theorem EffectsSettings.ofConfig?_written {e : EffectsSettings}
    (h : e.keepaliveSeconds < 2 ^ 63) (hplain : ∀ path ∈ e.knownInconsistencies, path.Plain) :
    EffectsSettings.ofConfig? form (.table
      [("known_inconsistencies", .list (e.knownInconsistencies.map fun p => .text p.dotted)),
        ("keepalive_secs", .integer e.keepaliveSeconds)]) = some e := by
  have hpaths : list? (fun v => (text? v).map FieldPath.parse)
      (.list (e.knownInconsistencies.map fun p => .text p.dotted)) =
        some e.knownInconsistencies :=
    list?_map fun path hpath => congrArg some (FieldPath.parse_dotted (hplain path hpath))
  have hseconds : natural? (.integer e.keepaliveSeconds) = some e.keepaliveSeconds := by
    have hbound : Int.pow 2 64 = 2 ^ 64 := rfl
    rw [natural?, if_pos ⟨by omega, by omega⟩]
    rfl
  rw [ofConfig?_table, field?_of_ne _ (by decide), field?_self, field?_self, hseconds, hpaths]
  rfl

theorem BatchingSettings.ofConfig?_written (b : BatchingSettings) :
    BatchingSettings.ofConfig? form (.table
      [("error_delays", .list (b.errorDelays.map .float))]) = some b := by
  have hdelays : list? double? (.list (b.errorDelays.map .float)) = some b.errorDelays :=
    list?_map fun _ _ => rfl
  rw [ofConfig?_table, field?_self, hdelays]
  rfl

theorem PersistenceSettings.ofConfig?_written (p : PersistenceSettings) :
    PersistenceSettings.ofConfig? form (.table
      [("annotations_prefix", .text p.annotationsPrefix), ("status_name", .text p.statusName),
        ("progress_storage", .text p.place.name)]) = some p := by
  have hplace : ((name? form (.text p.place.name)).bind MarkerPlace.ofName?) = some p.place :=
    MarkerPlace.ofName?_name p.place
  rw [ofConfig?_table, field?_of_ne _ (by decide), field?_of_ne _ (by decide), field?_self, hplace,
    field?_of_ne _ (by decide), field?_self, field?_self]
  rfl

end Sections

namespace Settings

variable {s : Settings}

/-- The settings are those of some document. -/
def Deserialized (s : Settings) : Prop :=
  (∃ value, ofJson value = .ok s) ∨ ∃ text, ofToml text = .ok s

theorem Deserialized.plain (h : Deserialized s) :
    ∀ path ∈ s.effects.knownInconsistencies, path.Plain := by
  rcases h with ⟨value, h⟩ | ⟨text, h⟩
  · rw [ofJson] at h
    split at h
    · cases h
    · next hs =>
      cases h
      exact plain_of_ofConfig? hs
  · rw [ofToml] at h
    split at h
    · cases h
    · split at h
      · cases h
      · next hs =>
        cases h
        exact plain_of_ofConfig? hs

/-- The sections of settings can be written if the longest sleep fits 63 bits. -/
theorem writable_toSections (h : s.effects.keepaliveSeconds < 2 ^ 63) :
    Toml.Writable s.toSections where
  names := by simp only [toSections, List.forall_mem_cons]; decide
  distinct := by simp only [toSections, List.map_cons, List.map_nil]; decide
  keys := by simp only [toSections, List.forall_mem_cons]; decide
  distinct_keys := by
    simp only [toSections, List.forall_mem_cons, List.map_cons, List.map_nil]
    decide
  values := by
    have hlist {items : List ConfigValue} (h : ∀ v ∈ items, Toml.Storable 78 v) :
        Toml.Storable (Toml.nestingLimit - 1) (.list items) := .list h
    have hseconds :
        Toml.Storable (Toml.nestingLimit - 1) (.integer s.effects.keepaliveSeconds) := by
      have hbound : Int.pow 2 63 = 2 ^ 63 := rfl
      exact .integer (by omega) (by omega)
    have htexts (paths : List FieldPath) :
        ∀ v ∈ paths.map (fun p => ConfigValue.text p.dotted), Toml.Storable 78 v :=
      List.forall_mem_map.2 fun p _ => .text p.dotted
    have hfloats (delays : List Binary64) : ∀ v ∈ delays.map .float, Toml.Storable 78 v :=
      List.forall_mem_map.2 fun x _ => .float x
    simp only [toSections, List.forall_mem_cons]
    exact ⟨⟨hseconds, hlist (htexts _), nofun⟩, ⟨hlist (hfloats _), nofun⟩,
      ⟨.text _, .text _, .text _, nofun⟩, nofun⟩

/-- A longest sleep of more than 63 bits is not written. -/
theorem toToml_eq_empty (h : 2 ^ 63 ≤ s.effects.keepaliveSeconds) : s.toToml = "" := by
  have hvalue : Toml.renderValue? (.integer s.effects.keepaliveSeconds) = none := by
    have hbound : Int.pow 2 63 = 2 ^ 63 := rfl
    rw [Toml.renderValue?, if_neg (by omega)]
  have hsection {entries : List (String × ConfigValue)} : Toml.renderSection?
      ("effects", ("keepalive_secs", .integer s.effects.keepaliveSeconds) :: entries) = none := by
    rw [Toml.renderSection?, List.mapM_cons, hvalue]
    rfl
  rw [toToml, toSections, Toml.render?, List.mapM_cons, hsection]
  rfl

theorem load_bytes (text : String) : load (.bytes text.toUTF8) = ofToml text := by
  have hdecode : String.fromUTF8? text.toUTF8 = some text := by
    simpa [String.fromUTF8?, String.fromUTF8] using text.isValidUTF8
  have htext : (FileContent.bytes text.toUTF8).text = .ok text := by
    rw [FileContent.text, hdecode]
  show (FileContent.bytes text.toUTF8).text >>= ofToml = ofToml text
  rw [htext]
  rfl

theorem parse?_empty : Toml.parse? "" = some (.table []) := by
  have hwritable : Toml.Writable [] := ⟨nofun, List.nodup_nil, nofun, nofun, nofun⟩
  obtain ⟨document, hrender, hparse⟩ := Toml.parse?_render? hwritable
  obtain rfl : "" = document := Option.some.inj hrender
  exact hparse

/-- An empty file stands for the defaults. -/
theorem ofToml_empty : ofToml "" = .ok default := by
  rw [ofToml, parse?_empty]
  rfl

/-- What is read from the written sections are the settings. -/
theorem ofConfig?_sections (h : s.effects.keepaliveSeconds < 2 ^ 63)
    (hplain : ∀ path ∈ s.effects.knownInconsistencies, path.Plain) :
    ofConfig? .toml (.table (s.toSections.map Toml.sectionEntry).reverse) = some s := by
  have hentries : (s.toSections.map Toml.sectionEntry).reverse =
      [("persistence", .table
          [("annotations_prefix", .text s.persistence.annotationsPrefix),
            ("status_name", .text s.persistence.statusName),
            ("progress_storage", .text s.persistence.place.name)]),
        ("batching", .table [("error_delays", .list (s.batching.errorDelays.map .float))]),
        ("effects", .table
          [("known_inconsistencies",
              .list (s.effects.knownInconsistencies.map fun p => .text p.dotted)),
            ("keepalive_secs", .integer s.effects.keepaliveSeconds)])] := rfl
  rw [hentries, ofConfig?_table, field?_of_ne _ (by decide), field?_of_ne _ (by decide),
    field?_self, EffectsSettings.ofConfig?_written _ h hplain, Option.bind_some,
    field?_of_ne _ (by decide), field?_self, BatchingSettings.ofConfig?_written, Option.bind_some,
    field?_self, PersistenceSettings.ofConfig?_written]
  rfl

theorem ofToml_eq_ok {text : String} {value : ConfigValue} (hparse : Toml.parse? text = some value)
    (hread : ofConfig? .toml value = some s) : ofToml text = .ok s := by
  rw [ofToml, hparse]
  simp only [hread]

/-- Settings load back from their text if their longest sleep fits 63 bits. -/
theorem load_toToml (h : s.effects.keepaliveSeconds < 2 ^ 63)
    (hplain : ∀ path ∈ s.effects.knownInconsistencies, path.Plain) :
    load (.bytes s.toToml.toUTF8) = .ok s := by
  obtain ⟨document, hrender, hparse⟩ := Toml.parse?_render? (writable_toSections h)
  have htext : s.toToml = document := by rw [toToml, hrender, Option.getD_some]
  rw [load_bytes, htext]
  exact ofToml_eq_ok hparse (ofConfig?_sections h hplain)

/-- Settings with a longer sleep load back as the defaults. -/
theorem load_toToml_of_le (h : 2 ^ 63 ≤ s.effects.keepaliveSeconds) :
    load (.bytes s.toToml.toUTF8) = .ok default := by
  rw [load_bytes, toToml_eq_empty h, ofToml_empty]

/-- The text of settings is empty only if they cannot be written. -/
theorem toToml_eq_empty_iff : s.toToml = "" ↔ 2 ^ 63 ≤ s.effects.keepaliveSeconds := by
  refine ⟨fun hempty => Nat.le_of_not_lt fun h => ?_, toToml_eq_empty⟩
  obtain ⟨document, hrender, hparse⟩ := Toml.parse?_render? (writable_toSections h)
  have htext : s.toToml = document := by rw [toToml, hrender, Option.getD_some]
  rw [← htext, hempty, parse?_empty] at hparse
  cases hparse

/-- Settings that were read from a document load back from their text exactly if their longest sleep
fits 63 bits. All others come back as the defaults, and their text is empty. -/
theorem loads_back_iff (h : s.Deserialized) :
    (load (.bytes s.toToml.toUTF8) = .ok s ↔ s.effects.keepaliveSeconds < 2 ^ 63) ∧
      load (.bytes s.toToml.toUTF8) =
        .ok (if s.effects.keepaliveSeconds < 2 ^ 63 then s else default) ∧
      (s.toToml = "" ↔ 2 ^ 63 ≤ s.effects.keepaliveSeconds) := by
  have hload : load (.bytes s.toToml.toUTF8) =
      .ok (if s.effects.keepaliveSeconds < 2 ^ 63 then s else default) := by
    split
    · next hlt => exact load_toToml hlt h.plain
    · next hge => exact load_toToml_of_le (Nat.le_of_not_lt hge)
  refine ⟨⟨fun hback => ?_, fun hlt => load_toToml hlt h.plain⟩, hload, toToml_eq_empty_iff⟩
  by_contra hge
  rw [hload, if_neg hge] at hback
  -- The defaults sleep for ten minutes at most.
  cases hback
  exact hge (by decide)

/-- A document with the longest sleep that can be written, among other fields. -/
def longestDocument : Json :=
  .objectOfList
    [("effects", .objectOfList
        [("keepalive_secs", .num (.integer 9223372036854775807)),
          ("known_inconsistencies", .array [.str ".spec..replicas"])]),
      ("batching", .objectOfList [("error_delays", .array [.num (.integer 2)])]),
      ("persistence", .objectOfList
        [("progress_storage", .str "smart"), ("status_name", .str "it's")])]

/-- Its settings. -/
def longest : Settings where
  effects := ⟨9223372036854775807, [⟨["spec", "replicas"]⟩]⟩
  batching := ⟨[.ofInt 2]⟩
  persistence := ⟨.smart, "it's", "reconciler.dev"⟩

theorem longest_loads_back :
    ofJson longestDocument = .ok longest ∧ load (.bytes longest.toToml.toUTF8) = .ok longest :=
  ⟨rfl, (loads_back_iff (.inl ⟨longestDocument, rfl⟩)).1.2 (by decide)⟩

/-- A document with a sleep that is one second too long to be written. -/
def tooLongDocument : Json :=
  .objectOfList
    [("effects", .objectOfList [("keepalive_secs", .num (.integer 9223372036854775808))])]

/-- Its settings. -/
def tooLong : Settings :=
  { default with
    effects := { EffectsSettings.default with keepaliveSeconds := 9223372036854775808 } }

/-- They are read from a document, and what comes back of them are the defaults. -/
theorem tooLong_comes_back_default :
    ofJson tooLongDocument = .ok tooLong ∧ load (.bytes tooLong.toToml.toUTF8) = .ok default ∧
      load (.bytes tooLong.toToml.toUTF8) ≠ .ok tooLong := by
  have hload : load (.bytes tooLong.toToml.toUTF8) = .ok default := load_toToml_of_le (by decide)
  have hne : default.effects.keepaliveSeconds ≠ tooLong.effects.keepaliveSeconds := by decide
  refine ⟨rfl, hload, fun hback => hne ?_⟩
  rw [hload] at hback
  exact congrArg (fun s => s.effects.keepaliveSeconds) (Except.ok.inj hback)

end Settings

end ControlLoop
