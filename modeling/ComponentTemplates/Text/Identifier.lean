/-
Module: ComponentTemplates.Text.Identifier
Purpose: ASCII identifiers, the names that may stand unquoted in a lookup: a letter or underscore,
  then letters, digits and underscores. `split?` reads the longest one at the head of a text.
Main exports: isStart, isRest, isIdentifier, split?
-/

namespace ComponentTemplates.Text.Identifier

/-- An ASCII letter. -/
def isLetter (c : Char) : Bool :=
  ('a' ≤ c && c ≤ 'z') || ('A' ≤ c && c ≤ 'Z')

/-- A character that an identifier may begin with. -/
def isStart (c : Char) : Bool :=
  isLetter c || c == '_'

/-- A character that an identifier may go on with. -/
def isRest (c : Char) : Bool :=
  isStart c || ('0' ≤ c && c ≤ '9')

/-- The whole of `cs` is one identifier. -/
def isIdentifier : List Char → Bool
  | [] => false
  | c :: rest => isStart c && rest.all isRest

/-- The longest identifier at the head of `cs`, with what follows it. -/
def split? : List Char → Option (List Char × List Char)
  | [] => none
  | c :: rest =>
      if isStart c then some (c :: rest.takeWhile isRest, rest.dropWhile isRest) else none

/-- What `split?` takes is an identifier. -/
theorem isIdentifier_of_split? {cs name rest : List Char} (h : split? cs = some (name, rest)) :
    isIdentifier name = true := by
  cases cs with
  | nil => simp [split?] at h
  | cons c tail =>
      by_cases hc : isStart c = true
      · simp only [split?, hc, if_true, Option.some.injEq, Prod.mk.injEq] at h
        obtain ⟨rfl, _⟩ := h
        simp [isIdentifier, hc, List.all_takeWhile]
      · simp [split?, hc] at h

/-- `split?` loses nothing. -/
theorem append_of_split? {cs name rest : List Char} (h : split? cs = some (name, rest)) :
    name ++ rest = cs := by
  cases cs with
  | nil => simp [split?] at h
  | cons c tail =>
      by_cases hc : isStart c = true
      · simp only [split?, hc, if_true, Option.some.injEq, Prod.mk.injEq] at h
        obtain ⟨rfl, rfl⟩ := h
        simp [List.takeWhile_append_dropWhile]
      · simp [split?, hc] at h

end ComponentTemplates.Text.Identifier
