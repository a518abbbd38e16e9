/-
Module: ComponentTemplates.Template.Mark
Purpose: The marks of the template language and where they stand in a text. A mark is a comment, a
  block tag, or a dollar sign with the path of a lookup, in braces or not; all else is text. `split`
  cuts a text into its marks, each the leftmost that begins behind the one before, and the text
  between them. Main statement: the cut loses nothing and adds nothing (`written_split`).
Main exports: Mark, Mark.read?, Piece, Piece.written, split
-/
import ComponentTemplates.Text.Blank
import ComponentTemplates.Text.Identifier
import ComponentTemplates.Text.Split

namespace ComponentTemplates.Template

open Text

/-- What a mark says. -/
inductive Mark where
  | comment
  /-- A block tag: its keyword, and the rest of it without the blanks around. -/
  | block (keyword argument : List Char)
  /-- The path that follows a dollar sign. -/
  | lookup (path : List Char)
deriving DecidableEq, Repr, Inhabited

/-- A character of a block keyword. -/
def isKeywordChar (c : Char) : Bool :=
  ('a' ≤ c && c ≤ 'z') || c == '_'

/-- The arguments in parentheses at the head of the text, if they are closed, and what follows. -/
def splitArguments (cs : List Char) : List Char × List Char :=
  match cs with
  | '(' :: rest =>
      match cut? [')'] rest with
      | some (inner, after) => ('(' :: inner ++ [')'], after)
      | none => ([], cs)
  | _ => ([], cs)

/-- Splitting off arguments loses nothing. -/
theorem append_splitArguments (cs : List Char) :
    (splitArguments cs).1 ++ (splitArguments cs).2 = cs := by
  unfold splitArguments
  split
  · split
    · next h => simpa using append_of_cut? h
    · rfl
  · rfl

/-- A name with its arguments at the head of the text, and what follows. -/
def splitStep? (cs : List Char) : Option (List Char × List Char) :=
  (Identifier.split? cs).map fun (name, rest) =>
    (name ++ (splitArguments rest).1, (splitArguments rest).2)

/-- A step that is split off stood in front of the rest. -/
theorem append_of_splitStep? {cs step rest : List Char} (h : splitStep? cs = some (step, rest)) :
    step ++ rest = cs := by
  simp only [splitStep?, Option.map_eq_some_iff, Prod.exists, Prod.mk.injEq] at h
  obtain ⟨name, tail, hname, rfl, rfl⟩ := h
  rw [List.append_assoc, append_splitArguments, Identifier.append_of_split? hname]

theorem length_of_splitStep? {cs step rest : List Char} (h : splitStep? cs = some (step, rest)) :
    rest.length ≤ cs.length := by
  rw [← append_of_splitStep? h]
  simp

/-- The further steps of a path, each behind a dot, at the head of the text, and what follows. -/
def splitSteps : List Char → List Char × List Char
  | '.' :: rest =>
      match h : splitStep? rest with
      | some (step, after) =>
          have := length_of_splitStep? h
          ('.' :: step ++ (splitSteps after).1, (splitSteps after).2)
      | none => ([], '.' :: rest)
  | cs => ([], cs)
termination_by cs => cs.length

/-- Splitting off further steps loses nothing. -/
theorem append_splitSteps (cs : List Char) : (splitSteps cs).1 ++ (splitSteps cs).2 = cs := by
  fun_induction splitSteps cs with
  | case1 rest step after h _ ih =>
      rw [← append_of_splitStep? h]
      simp [ih]
  | case2 rest h => rfl
  | case3 cs h => rfl

/-- The longest path at the head of the text, and what follows. -/
def splitPath? (cs : List Char) : Option (List Char × List Char) :=
  (splitStep? cs).map fun (step, rest) => (step ++ (splitSteps rest).1, (splitSteps rest).2)

theorem append_of_splitPath? {cs path rest : List Char} (h : splitPath? cs = some (path, rest)) :
    path ++ rest = cs := by
  simp only [splitPath?, Option.map_eq_some_iff, Prod.exists, Prod.mk.injEq] at h
  obtain ⟨step, tail, hstep, rfl, rfl⟩ := h
  rw [List.append_assoc, append_splitSteps, append_of_splitStep? hstep]

namespace Mark

/-- A comment at the head of the text. -/
def readComment? : List Char → Option (Mark × List Char)
  | '<' :: '%' :: '-' :: '-' :: rest =>
      (cut? ['-', '-', '%', '>'] rest).map fun (_, after) => (.comment, after)
  | _ => none

/-- A block tag at the head of the text. It needs a keyword and ends with the first closing mark
behind it. -/
def readBlock? : List Char → Option (Mark × List Char)
  | '<' :: '%' :: rest =>
      let inner := rest.dropWhile isBlank
      let keyword := inner.takeWhile isKeywordChar
      if keyword.isEmpty then none
      else
        (cut? ['%', '>'] (inner.dropWhile isKeywordChar)).map fun (argument, after) =>
          (.block keyword (trimBlank argument), after)
  | _ => none

/-- A path in braces at the head of the text. -/
def readBraced? : List Char → Option (Mark × List Char)
  | '\x7b' :: '$' :: rest =>
      match splitPath? rest with
      | some (path, '\x7d' :: after) => some (.lookup path, after)
      | _ => none
  | _ => none

/-- A path without braces at the head of the text. -/
def readBare? : List Char → Option (Mark × List Char)
  | '$' :: rest => (splitPath? rest).map fun (path, after) => (.lookup path, after)
  | _ => none

/-- The mark at the head of the text, and what follows it. -/
def read? (cs : List Char) : Option (Mark × List Char) :=
  readComment? cs <|> readBlock? cs <|> readBraced? cs <|> readBare? cs

/-- The rest is what the input goes on with behind something. -/
def Leaves (cs after : List Char) : Prop :=
  ∃ written, written ≠ [] ∧ written ++ after = cs

/-- Reading a comment leaves an end of the text, and less of it. -/
theorem leaves_of_readComment? {cs after : List Char} {mark : Mark}
    (h : readComment? cs = some (mark, after)) : Leaves cs after := by
  unfold readComment? at h
  split at h
  · next rest =>
      simp only [Option.map_eq_some_iff, Prod.exists, Prod.mk.injEq] at h
      obtain ⟨before, _, hcut, _, rfl⟩ := h
      exact ⟨['<', '%', '-', '-'] ++ before ++ ['-', '-', '%', '>'], by simp,
        by rw [← append_of_cut? hcut]; simp⟩
  · cases h

theorem leaves_of_readBlock? {cs after : List Char} {mark : Mark}
    (h : readBlock? cs = some (mark, after)) : Leaves cs after := by
  unfold readBlock? at h
  split at h
  · next rest =>
      simp only at h
      split at h
      · cases h
      · simp only [Option.map_eq_some_iff, Prod.exists, Prod.mk.injEq] at h
        obtain ⟨argument, _, hcut, _, rfl⟩ := h
        refine ⟨['<', '%'] ++ rest.takeWhile isBlank
          ++ (rest.dropWhile isBlank).takeWhile isKeywordChar ++ argument ++ ['%', '>'],
          by simp, ?_⟩
        have hcut := append_of_cut? hcut
        have hinner := List.takeWhile_append_dropWhile
          (p := isKeywordChar) (l := rest.dropWhile isBlank)
        have hrest := List.takeWhile_append_dropWhile (p := isBlank) (l := rest)
        simp only [List.append_assoc, List.cons_append, List.nil_append] at hcut ⊢
        rw [hcut, hinner, hrest]
  · cases h

theorem leaves_of_readBraced? {cs after : List Char} {mark : Mark}
    (h : readBraced? cs = some (mark, after)) : Leaves cs after := by
  unfold readBraced? at h
  split at h
  · next rest =>
      split at h
      · next path _ hpath =>
          cases h
          exact ⟨['\x7b', '$'] ++ path ++ ['\x7d'], by simp,
            by rw [← append_of_splitPath? hpath]; simp⟩
      · cases h
  · cases h

theorem leaves_of_readBare? {cs after : List Char} {mark : Mark}
    (h : readBare? cs = some (mark, after)) : Leaves cs after := by
  unfold readBare? at h
  split at h
  · simp only [Option.map_eq_some_iff, Prod.exists, Prod.mk.injEq] at h
    obtain ⟨path, _, hpath, _, rfl⟩ := h
    exact ⟨['$'] ++ path, by simp, by rw [← append_of_splitPath? hpath]; simp⟩
  · cases h

/-- A mark takes up a part of the input that is not empty. -/
theorem leaves_of_read? {cs after : List Char} {mark : Mark} (h : read? cs = some (mark, after)) :
    Leaves cs after := by
  simp only [read?, Option.orElse_eq_orElse, Option.orElse_eq_or, Option.or_eq_some_iff] at h
  rcases h with h | ⟨_, h | ⟨_, h | ⟨_, h⟩⟩⟩
  · exact leaves_of_readComment? h
  · exact leaves_of_readBlock? h
  · exact leaves_of_readBraced? h
  · exact leaves_of_readBare? h

theorem Leaves.length_lt {cs after : List Char} (h : Leaves cs after) :
    after.length < cs.length := by
  obtain ⟨written, hne, rfl⟩ := h
  have := List.length_pos_iff.2 hne
  simp
  omega

/-- What was taken up, with the rest behind it, is the input. -/
theorem Leaves.take_append {cs after : List Char} (h : Leaves cs after) :
    cs.take (cs.length - after.length) ++ after = cs := by
  obtain ⟨written, _, rfl⟩ := h
  simp

end Mark

/-- A stretch of a template: text, or a mark with the way it is written. -/
inductive Piece where
  | text (content : List Char)
  | mark (written : List Char) (mark : Mark)
deriving DecidableEq, Repr, Inhabited

/-- The stretch of the template that a piece is. -/
def Piece.written : Piece → List Char
  | .text content => content
  | .mark written _ => written

/-- Puts a character of text in front of the pieces, into the first one if that is text. -/
def consText (c : Char) : List Piece → List Piece
  | .text content :: rest => .text (c :: content) :: rest
  | pieces => .text [c] :: pieces

/-- Cuts a template into its marks and the text between them. -/
def split : List Char → List Piece
  | [] => []
  | c :: rest =>
      match h : Mark.read? (c :: rest) with
      | some (mark, after) =>
          have : after.length < rest.length + 1 := (Mark.leaves_of_read? h).length_lt
          .mark ((c :: rest).take ((c :: rest).length - after.length)) mark :: split after
      | none => consText c (split rest)
termination_by cs => cs.length

/-- A character in front of the pieces adds no mark. -/
theorem mem_consText {c : Char} {written : List Char} {mark : Mark} {pieces : List Piece}
    (h : Piece.mark written mark ∈ consText c pieces) : Piece.mark written mark ∈ pieces := by
  unfold consText at h
  split at h
  · simpa using h
  · simpa using h

/-- A character in front of the pieces stands in front of what they are written as. -/
theorem written_consText (c : Char) (pieces : List Piece) :
    (consText c pieces).flatMap Piece.written = c :: pieces.flatMap Piece.written := by
  unfold consText
  split <;> simp [Piece.written]

/-- The pieces, written one after another, are the template. -/
theorem written_split (cs : List Char) : (split cs).flatMap Piece.written = cs := by
  fun_induction split cs with
  | case1 => rfl
  | case2 c rest mark after h _ ih =>
      rw [List.flatMap_cons, ih]
      exact (Mark.leaves_of_read? h).take_append
  | case3 c rest h ih => rw [written_consText, ih]

end ComponentTemplates.Template
