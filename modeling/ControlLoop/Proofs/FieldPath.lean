import ControlLoop.FieldPath

/-!
# Dotted notation

A key is plain if it is not empty and holds no dot. The paths that are read from
dotted notation have plain keys only, and a path with plain keys is read back
from its dotted form as it was. So these are exactly the paths that dotted
notation can tell.
-/

set_option autoImplicit false

namespace ControlLoop

namespace FieldPath

/-- Dotted notation can tell a key of which there is something, and no dot in it. -/
def PlainKey (key : String) : Prop := key ≠ "" ∧ '.' ∉ key.toList

instance (key : String) : Decidable (PlainKey key) := inferInstanceAs (Decidable (_ ∧ _))

/-- A path with plain keys only. -/
def Plain (path : FieldPath) : Prop := ∀ key ∈ path.keys, PlainKey key

instance (path : FieldPath) : Decidable path.Plain :=
  inferInstanceAs (Decidable (∀ key ∈ path.keys, PlainKey key))

theorem segments_eq_splitOn (text : List Char) : segments text = text.splitOn '.' := by
  induction text with
  | nil => rfl
  | cons c rest ih =>
    rw [segments, ih, List.splitOn_eq_splitOnP, List.splitOn_eq_splitOnP,
      List.splitOnP_cons_eq_if_modifyHead]
    by_cases hc : c = '.'
    · simp [hc]
    · obtain ⟨first, others, h⟩ := List.exists_cons_of_ne_nil (List.splitOnP_ne_nil (· == '.') rest)
      simp [hc, h]

theorem dot_not_mem_of_mem_segments {text segment : List Char} (h : segment ∈ segments text) :
    '.' ∉ segment := by
  induction text generalizing segment with
  | nil =>
    rw [segments, List.mem_singleton] at h
    simp [h]
  | cons c rest ih =>
    rw [segments] at h
    split at h
    · rcases List.mem_cons.1 h with rfl | h
      · exact List.not_mem_nil
      · exact ih h
    · next hc =>
      split at h
      · next first others hrest =>
        rcases List.mem_cons.1 h with rfl | h
        · have hfirst : '.' ∉ first := ih (hrest ▸ List.mem_cons_self)
          simp [Ne.symm hc, hfirst]
        · exact ih (hrest ▸ List.mem_cons_of_mem _ h)
      · rw [List.mem_singleton.1 h]
        simp [Ne.symm hc]

/-- What is read from dotted notation has plain keys. -/
theorem plain_parse (text : String) : (parse text).Plain := by
  intro key hkey
  obtain ⟨segment, hsegment, rfl⟩ := List.mem_map.1 hkey
  obtain ⟨hmem, hne⟩ := List.mem_filter.1 hsegment
  constructor
  · intro hempty
    have hnil : segment = [] := by simpa using congrArg String.toList hempty
    simp [hnil] at hne
  · rw [String.toList_ofList]
    exact dot_not_mem_of_mem_segments hmem

/-- The keys of a plain path stand between the dots of its dotted form. -/
theorem segments_dotted {path : FieldPath} (h : path.Plain) (hroot : path.keys ≠ []) :
    segments path.dotted.toList = path.keys.map String.toList := by
  have hdots : ∀ l ∈ path.keys.map String.toList, '.' ∉ l := by
    intro l hl
    obtain ⟨key, hkey, rfl⟩ := List.mem_map.1 hl
    exact (h key hkey).2
  rw [segments_eq_splitOn, dotted, String.toList_intercalate]
  exact List.splitOn_intercalate '.' hdots (by simpa using hroot)

/-- A plain path is read back from its dotted form. -/
theorem parse_dotted {path : FieldPath} (h : path.Plain) : parse path.dotted = path := by
  obtain ⟨keys⟩ := path
  cases keys with
  | nil => rfl
  | cons first others =>
    have hfilter : ((first :: others).map String.toList).filter (fun s => !s.isEmpty) =
        (first :: others).map String.toList := by
      refine List.filter_eq_self.2 fun s hs => ?_
      obtain ⟨key, hkey, rfl⟩ := List.mem_map.1 hs
      simpa using (h key hkey).1
    rw [parse, segments_dotted h (List.cons_ne_nil first others), hfilter, List.map_map]
    simp [Function.comp_def]

/-- Dotted notation is faithful for the paths with plain keys and for no others, and what is read
from it is always such a path. So to write what was read and to read it again changes nothing. -/
theorem dotted_faithful_iff_plain :
    (∀ path : FieldPath, parse path.dotted = path ↔ path.Plain) ∧
      ∀ text, (parse text).Plain ∧ parse (parse text).dotted = parse text := by
  refine ⟨fun path => ⟨fun h => ?_, parse_dotted⟩, fun text => ?_⟩
  · rw [← h]
    exact plain_parse path.dotted
  · exact ⟨plain_parse text, parse_dotted (plain_parse text)⟩

/-- An annotation with a domain is taken for another field. -/
example : parse (dotted ⟨["metadata", "annotations", "reconciler.dev/touch-dummy"]⟩) =
    ⟨["metadata", "annotations", "reconciler", "dev/touch-dummy"]⟩ := by decide

end FieldPath

end ControlLoop
