/-
Module: ComponentTemplates.Proofs.Text.Quoting
Purpose: What generated code writes for a text or a name is taken for nothing else. No text breaks out of
  its literal, and no name is taken for another one, nor a bare name for a literal
  (`Quoted.unambiguous`).
Main exports: Regex.MatchesAll, Quoted.matchesAll_namePattern, Quoted.name_eq_literal_iff,
  Quoted.name_injective, Quoted.unambiguous
-/
import ComponentTemplates.Proofs.Template.Pattern
import ComponentTemplates.Proofs.Text.Delimited

namespace ComponentTemplates

/-- The expression matches the text from its start to its end. -/
def Regex.MatchesAll (regex : Regex) (text : String) : Prop :=
  ∃ way ∈ regex.ways text.toList, way.rest = []

namespace Text.Quoted

open Regex Template

variable {text other : String}

/-- The pattern of names leaves nothing of a text just if the text is an identifier. -/
theorem matchesAll_namePattern :
    namePattern.MatchesAll text ↔ Identifier.isIdentifier text.toList = true := by
  constructor
  · rintro ⟨way, hway, hrest⟩
    obtain ⟨first, hfirst, others, hothers, rfl⟩ := mem_ways_seq.1 hway
    obtain ⟨c, rest, hchars, hc, rfl⟩ := mem_ways_set hfirst
    obtain ⟨htaken, _, hclass⟩ := mem_ways_stretch hothers
    have hall : others.taken = rest := by
      rwa [← Way.rest_andThen, hrest, List.append_nil] at htaken
    rw [hchars, Identifier.isIdentifier, hc, Bool.true_and, List.all_eq_true, ← hall]
    exact hclass
  · intro hname
    have hsplit : Identifier.split? (text.toList ++ []) = some (text.toList, []) :=
      Identifier.split?_append hname (by simp)
    rw [List.append_nil] at hsplit
    have hfirst : namePattern.first? text.toList = some (.plain text.toList []) := by
      rw [first?_namePattern, hsplit, Option.map_some]
    exact ⟨_, List.mem_of_head? hfirst, rfl⟩

theorem literal_injective : Function.Injective literal := by
  intro first second h
  have happend : (literal first).toList ++ [] = (literal second).toList ++ [] := by rw [h]
  exact (literal_append_inj.1 happend).1

/-- A literal begins with a quote, and no identifier does. -/
theorem not_isIdentifier_literal (text : String) :
    ¬Identifier.isIdentifier (literal text).toList = true := by
  rw [toList_literal]
  simp [write, Identifier.isIdentifier, Identifier.isStart, Identifier.isLetter]

/-- An identifier is printed as it is. -/
theorem name_of_matchesAll (h : namePattern.MatchesAll text) : name text = text :=
  if_pos (matchesAll_namePattern.1 h)

/-- What is no identifier is printed as a literal. -/
theorem name_of_not_matchesAll (h : ¬namePattern.MatchesAll text) : name text = literal text :=
  if_neg fun hname => h (matchesAll_namePattern.2 hname)

/-- What a name is written as is a literal just if the name is no identifier, and then it is the name's own
literal. -/
theorem name_eq_literal_iff :
    name text = literal other ↔ ¬namePattern.MatchesAll text ∧ text = other := by
  by_cases hbare : namePattern.MatchesAll text
  · rw [name_of_matchesAll hbare]
    refine iff_of_false ?_ fun h => h.1 hbare
    rintro rfl
    exact not_isIdentifier_literal other (matchesAll_namePattern.1 hbare)
  · rw [name_of_not_matchesAll hbare, literal_injective.eq_iff]
    exact (and_iff_right hbare).symm

theorem name_injective : Function.Injective name := by
  intro first second h
  have happend : (name first).toList ++ [] = (name second).toList ++ [] := by rw [h]
  have hend : ∀ c ∈ ([] : List Char).head?, Identifier.isRest c = false := by simp
  exact (delimited_name hend hend happend).1

/-- **Quoting**: a literal is read back as its text, and the reader stops right behind it, whatever the
text is made of and whatever follows; it never goes on to another line. A name stands for itself if it
is an identifier as a whole, and else is such a literal. So a bare name is never taken for a literal, and
no name for another. -/
theorem unambiguous :
    (∀ text after : String, read? (literal text ++ after).toList = some (text.toList, after.toList)) ∧
      (∀ text, '\n' ∉ (literal text).toList ∧ '\r' ∉ (literal text).toList) ∧
      (∀ text, namePattern.MatchesAll text ∧ name text = text ∨
        ¬namePattern.MatchesAll text ∧ name text = literal text) ∧
      (∀ text other, name text = literal other ↔ ¬namePattern.MatchesAll text ∧ text = other) ∧
      Function.Injective name := by
  refine ⟨?back, ?line, ?forms, fun _ _ => name_eq_literal_iff, name_injective⟩
  case back =>
    intro text after
    rw [String.toList_append, toList_literal, read?_write]
  case line =>
    exact fun text => ⟨lineBreak_not_mem_literal (.inl rfl) text,
      lineBreak_not_mem_literal (.inr rfl) text⟩
  case forms =>
    intro text
    by_cases hbare : namePattern.MatchesAll text
    · exact .inl ⟨hbare, name_of_matchesAll hbare⟩
    · exact .inr ⟨hbare, name_of_not_matchesAll hbare⟩

/-- A backslash in front of a quote, in the text and behind it. -/
example : read? (literal "it\\'s\\" ++ "' . '").toList = some ("it\\'s\\".toList, "' . '".toList) := by
  decide

end Text.Quoted

end ComponentTemplates
