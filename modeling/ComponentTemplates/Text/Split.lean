/-
Module: ComponentTemplates.Text.Split
Purpose: Cutting texts at marks. `pieces` cuts at every occurrence of a character, `cut?` at the first
  occurrence of a mark. Main statement: the two parts and the mark between them are the whole text
  (`append_of_cut?`).
Main exports: pieces, cut?
-/

namespace ComponentTemplates.Text

/-- The pieces of a text between the given separator. There is one more than separators. -/
def pieces (separator : Char) : List Char → List (List Char)
  | [] => [[]]
  | c :: rest =>
      if c = separator then [] :: pieces separator rest
      else
        match pieces separator rest with
        | [] => [[c]]
        | piece :: others => (c :: piece) :: others

/-- What stands before the first occurrence of `mark`, and what stands after it. -/
def cut? (mark : List Char) (cs : List Char) : Option (List Char × List Char) :=
  if mark.isPrefixOf cs then some ([], cs.drop mark.length)
  else
    match cs with
    | [] => none
    | c :: rest => (cut? mark rest).map fun (before, after) => (c :: before, after)

theorem length_dropWhile_le (p : Char → Bool) (cs : List Char) :
    (cs.dropWhile p).length ≤ cs.length :=
  (List.dropWhile_sublist p).length_le

/-- The two parts with the mark between them are the whole text. -/
theorem append_of_cut? {mark cs before after : List Char} (h : cut? mark cs = some (before, after)) :
    before ++ mark ++ after = cs := by
  induction cs generalizing before after with
  | nil =>
      unfold cut? at h
      split at h
      · next hmark =>
          obtain ⟨tail, htail⟩ := List.isPrefixOf_iff_prefix.1 hmark
          obtain ⟨rfl, rfl⟩ := List.append_eq_nil_iff.1 htail
          cases h
          rfl
      · cases h
  | cons c rest ih =>
      unfold cut? at h
      split at h
      · next hmark =>
          obtain ⟨tail, htail⟩ := List.isPrefixOf_iff_prefix.1 hmark
          cases h
          rw [← htail]
          simp
      · simp only [Option.map_eq_some_iff] at h
        obtain ⟨⟨first, last⟩, hcut, heq⟩ := h
        cases heq
        rw [List.cons_append, List.cons_append, ih hcut]

/-- Behind a mark that is not empty, less text is left. -/
theorem length_of_cut? {mark cs before after : List Char} (h : cut? mark cs = some (before, after)) :
    after.length + mark.length ≤ cs.length := by
  rw [← append_of_cut? h]
  simp
  omega

end ComponentTemplates.Text
