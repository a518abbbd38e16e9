/-
Module: ComponentTemplates.Proofs.Template.BareTags
Purpose: Templates without the arguments of tags that ask for nothing. Nothing else is read into what is
  left: no mark begins where there was text before, for what closes a comment, a tag or arguments would
  have been there before; and no mark goes on longer than it did. Main statements: such a template is cut
  at the same places, and only these tags are different (`Sheds.forall₂_split`); and every template can
  do without all of these arguments (`exists_sheds`).
Main exports: bareKeywords, Sheds, Piece.Sheds, ArgumentsRead, Sheds.replaces, Sheds.forall₂_split,
  exists_sheds
-/
import ComponentTemplates.Proofs.Template.Reread
import Mathlib.Data.List.Forall2

namespace ComponentTemplates.Template

open Text

/-- The keywords of the tags that ask for nothing. -/
def bareKeywords : List String :=
  ["else", "end_if", "end_loop", "end_with"]

/-- The second text is the first without some of the arguments of tags that ask for nothing. -/
inductive Sheds : List Char → List Char → Prop where
  | nil : Sheds [] []
  | text {c : Char} {rest new : List Char} (hread : Mark.read? (c :: rest) = none)
      (hrest : Sheds rest new) : Sheds (c :: rest) (c :: new)
  | mark {written rest new : List Char} {mark : Mark}
      (hread : Mark.read? (written ++ rest) = some (mark, rest)) (hrest : Sheds rest new) :
      Sheds (written ++ rest) (written ++ new)
  /-- The blanks around the keyword of a tag are free. -/
  | argument {written argument before after rest new : List Char} {keyword : String}
      (hread : Mark.read? (written ++ rest) = some (.block keyword.toList argument, rest))
      (hkeyword : keyword ∈ bareKeywords) (hbefore : ∀ c ∈ before, isBlank c = true)
      (hafter : ∀ c ∈ after, isBlank c = true) (hrest : Sheds rest new) :
      Sheds (written ++ rest)
        ('<' :: '%' :: (before ++ (keyword.toList ++ (after ++ ['%', '>']))) ++ new)

/-! ## Tags without arguments -/

section Tags

variable {cs after : List Char}

/-- Only a block tag is read as one. -/
theorem readBlock?_of_read? {keyword argument : List Char}
    (h : Mark.read? cs = some (.block keyword argument, after)) :
    Mark.readBlock? cs = some (.block keyword argument, after) := by
  rcases Mark.read?_cases h with h | h | h | h
  · unfold Mark.readComment? at h
    split at h
    · obtain ⟨_, _, heq⟩ := Option.map_eq_some_iff.1 h
      cases heq
    · cases h
  · exact h
  · unfold Mark.readBraced? at h
    split at h
    · split at h
      · cases h
      · cases h
    · cases h
  · unfold Mark.readBare? at h
    split at h
    · obtain ⟨_, _, heq⟩ := Option.map_eq_some_iff.1 h
      cases heq
    · cases h

theorem trimBlank_of_blanks (h : ∀ c ∈ cs, isBlank c = true) : trimBlank cs = [] := by
  have htrim : trimBlank (cs ++ ([] ++ [])) = trimBlank [] := trimBlank_in_blanks h nofun
  rwa [List.append_nil, List.append_nil] at htrim

theorem isKeyword_of_bare {keyword : String} (h : keyword ∈ bareKeywords) : IsKeyword keyword := by
  have hkeyword : keyword = "else" ∨ keyword = "end_if" ∨ keyword = "end_loop" ∨
      keyword = "end_with" := by
    simpa [bareKeywords] using h
  rcases hkeyword with rfl | rfl | rfl | rfl <;> exact ⟨by decide, by decide⟩

/-- A tag without an argument is read as such, whatever follows it. -/
theorem read?_bareTag {keyword : String} (hkeyword : IsKeyword keyword) {before blanks : List Char}
    (hbefore : ∀ c ∈ before, isBlank c = true) (hblanks : ∀ c ∈ blanks, isBlank c = true)
    (rest : List Char) :
    Mark.read? ('<' :: '%' :: (before ++ (keyword.toList ++ (blanks ++ ['%', '>']))) ++ rest) =
      some (.block keyword.toList [], rest) := by
  have hpercent : '%' ∉ blanks := fun hmem => absurd (hblanks '%' hmem) (by decide)
  have hhead : ∀ c ∈ (blanks ++ '%' :: ['>'] ++ rest).head?, isKeywordChar c = false := by
    intro c hc
    cases blanks with
    | nil =>
        cases hc
        decide
    | cons d others =>
        cases hc
        rw [Bool.eq_false_iff]
        intro hkey
        have hblank := hblanks c (List.mem_cons_self ..)
        rw [isBlank_of_isKeywordChar hkey] at hblank
        cases hblank
  have hread := readBlock?_of_keyword hbefore hkeyword.nonempty (List.all_eq_true.1 hkeyword.chars) hhead
  rw [cut?_of_not_mem hpercent, Option.map_some] at hread
  dsimp only at hread
  rw [trimBlank_of_blanks hblanks] at hread
  rw [← Mark.read?_of_readBlock? hread]
  simp

end Tags

/-! ## What is not new -/

section Sheds

variable {c : Char} {old new rest text needle : List Char}

/-- Only a bracket, a dollar sign and a brace begin a mark. -/
theorem read?_of_head (hc : c ∉ ['<', '$', '\x7b']) : Mark.read? (c :: rest) = none := by
  have hne : c ≠ '<' ∧ c ≠ '$' ∧ c ≠ '\x7b' := by simpa using hc
  apply read?_eq_none
  · exact fun h => hne.1 (List.cons_prefix_cons.1 h).1.symm
  · exact fun d _ h => hne.2.1 (List.cons_prefix_cons.1 h).1.symm
  · exact fun d _ h => hne.2.2 (List.cons_prefix_cons.1 h).1.symm

theorem Mark.ne_nil_of_read? {written : List Char} {mark : Mark}
    (h : Mark.read? (written ++ rest) = some (mark, rest)) : written ≠ [] := by
  rintro rfl
  exact absurd (Mark.leaves_of_read? h).length_lt (lt_irrefl _)

/-- A block tag begins with a bracket. -/
theorem head?_of_read?_block {keyword argument : List Char}
    (h : Mark.read? old = some (.block keyword argument, rest)) : old.head? = some '<' := by
  obtain ⟨blanks, keyword, more, between, rfl, -⟩ := exists_of_readBlock? (readBlock?_of_read? h)
  rfl

/-- Shedding arguments keeps the first character. -/
theorem Sheds.head? (h : Sheds old new) : new.head? = old.head? := by
  cases h with
  | nil => rfl
  | text hread hrest => rfl
  | mark hread hrest =>
      rw [List.head?_append_of_ne_nil _ (Mark.ne_nil_of_read? hread),
        List.head?_append_of_ne_nil _ (Mark.ne_nil_of_read? hread)]
  | argument hread hkeyword hbefore hafter hrest =>
      rw [head?_of_read?_block hread]
      rfl

/-- A character of text is kept. -/
theorem Sheds.of_cons (h : Sheds (c :: rest) new) (hnone : Mark.read? (c :: rest) = none) :
    ∃ tail, new = c :: tail ∧ Sheds rest tail := by
  generalize hold : c :: rest = old at h
  cases h with
  | nil => cases hold
  | text hread hrest =>
      cases hold
      exact ⟨_, rfl, hrest⟩
  | mark hread hrest =>
      rw [← hold, hnone] at hread
      cases hread
  | argument hread hkeyword hbefore hafter hrest =>
      rw [← hold, hnone] at hread
      cases hread

/-- A mark other than a block tag is kept. -/
theorem Sheds.of_read? {written : List Char} {mark : Mark}
    (h : Sheds (written ++ rest) new) (hread : Mark.read? (written ++ rest) = some (mark, rest))
    (hmark : ∀ keyword argument, mark ≠ .block keyword argument) :
    ∃ tail, new = written ++ tail ∧ Sheds rest tail := by
  generalize hold : written ++ rest = old at h
  rw [hold] at hread
  cases h with
  | nil => cases hread
  | text hnone hrest =>
      rw [hread] at hnone
      cases hnone
  | mark hfound hrest =>
      rw [hread] at hfound
      cases hfound
      obtain rfl := List.append_cancel_right hold
      exact ⟨_, rfl, hrest⟩
  | argument hfound hkeyword hbefore hafter hrest =>
      rw [hread] at hfound
      cases hfound
      exact absurd rfl (hmark _ _)

/-- Text in front of a template, as far as no mark begins in it, is kept. -/
theorem Sheds.of_text (h : Sheds (text ++ rest) new) (htext : ∀ c ∈ text, c ∉ ['<', '$', '\x7b']) :
    ∃ tail, new = text ++ tail ∧ Sheds rest tail := by
  induction text generalizing new with
  | nil => exact ⟨new, rfl, h⟩
  | cons c others ih =>
      obtain ⟨hc, hothers⟩ := List.forall_mem_cons.1 htext
      obtain ⟨later, rfl, hlater⟩ := Sheds.of_cons h (read?_of_head hc)
      obtain ⟨tail, rfl, htail⟩ := ih hlater hothers
      exact ⟨tail, rfl, htail⟩

/-- What the text begins with, up to the beginning of a tag, it began with before. -/
theorem Sheds.begins (h : Sheds old new) (hopen : '<' ∉ needle) (hbegins : needle <+: new) :
    needle <+: old := by
  induction h generalizing needle with
  | nil => exact hbegins
  | text hread hrest ih =>
      cases needle with
      | nil => exact List.nil_prefix
      | cons d others =>
          obtain ⟨rfl, hothers⟩ := List.cons_prefix_cons.1 hbegins
          exact List.cons_prefix_cons.2 ⟨rfl, ih (fun h => hopen (List.mem_cons_of_mem _ h)) hothers⟩
  | @mark written rest new mark hread hrest ih =>
      have hwritten := List.prefix_append written new
      rcases List.prefix_or_prefix_of_prefix hbegins hwritten with h | ⟨others, rfl⟩
      · exact h.trans (List.prefix_append written rest)
      · rw [List.prefix_append_right_inj] at hbegins ⊢
        exact ih (fun h => hopen (List.mem_append_right _ h)) hbegins
  | argument hread hkeyword hbefore hafter hrest ih =>
      cases needle with
      | nil => exact List.nil_prefix
      | cons d others =>
          obtain ⟨rfl, -⟩ := List.cons_prefix_cons.1 hbegins
          exact absurd (List.mem_cons_self ..) hopen

/-- Text in front is where it was. -/
theorem Sheds.of_new_text (h : Sheds old (text ++ new)) (htext : ∀ c ∈ text, c ∉ ['<', '$', '\x7b']) :
    ∃ rest, old = text ++ rest ∧ Sheds rest new := by
  have hopen : '<' ∉ text := fun hmem => htext '<' hmem (List.mem_cons_self ..)
  obtain ⟨rest, rfl⟩ := h.begins hopen (List.prefix_append text new)
  obtain ⟨tail, htail, hrest⟩ := h.of_text htext
  rw [List.append_cancel_left htail]
  exact ⟨rest, rfl, hrest⟩

/-- A text that closes something. No tag gets it in place of an argument, and it does not begin in one
tag and end behind it. -/
structure Closes (needle : List Char) : Prop where
  opening : '<' ∉ needle
  last : '>' ∉ needle.dropLast
  foreign : needle = ['%', '>'] ∨
    ∃ c ∈ needle, isBlank c = false ∧ isKeywordChar c = false ∧ c ∉ ['<', '%', '>']

theorem closes_parenthesis : Closes [')'] :=
  ⟨by decide, by decide, .inr ⟨')', by decide⟩⟩

theorem closes_tag : Closes ['%', '>'] :=
  ⟨by decide, by decide, .inl rfl⟩

theorem closes_comment : Closes ['-', '-', '%', '>'] :=
  ⟨by decide, by decide, .inr ⟨'-', by decide⟩⟩

/-- What closes something is whole in front of the end of a tag, or behind it. -/
theorem Closes.of_suffix {first second front : List Char} (h : Closes (first ++ second))
    (hfirst : first <:+ front ++ ['>']) : first = [] ∨ second = [] := by
  rcases List.suffix_concat_iff.1 hfirst with rfl | ⟨before, rfl, -⟩
  · exact .inl rfl
  · right
    by_contra hne
    have hlast := h.last
    rw [List.dropLast_append_of_ne_nil hne] at hlast
    exact hlast (List.mem_append_left _ (List.mem_append_right _ (List.mem_singleton_self _)))

/-- What closes something in a tag without its argument closed something in the tag as it was. -/
theorem infix_of_bareTag {written argument before after : List Char} {keyword : String}
    (hread : Mark.read? (written ++ rest) = some (.block keyword.toList argument, rest))
    (hkeyword : keyword ∈ bareKeywords) (hbefore : ∀ c ∈ before, isBlank c = true)
    (hafter : ∀ c ∈ after, isBlank c = true) (hneedle : Closes needle)
    (hinside : needle <:+: '<' :: '%' :: (before ++ (keyword.toList ++ (after ++ ['%', '>'])))) :
    needle <:+: written := by
  rcases hneedle.foreign with rfl | ⟨c, hc, hblank, hkey, hsign⟩
  · obtain ⟨blanks, keyword, more, between, hwritten, -, -, -, -, hcut, -⟩ :=
      exists_of_readBlock? (readBlock?_of_read? hread)
    obtain rfl := append_of_cut? hcut
    have hwhole : written ++ rest = '<' :: '%' :: (blanks ++ keyword ++ between) ++ ['%', '>'] ++ rest := by
      simpa using hwritten
    rw [List.append_cancel_right hwhole]
    exact (List.suffix_append _ _).isInfix
  · have hchars := List.all_eq_true.1 (isKeyword_of_bare hkeyword).chars
    have hmem := hinside.subset hc
    have hne : c ≠ '<' ∧ c ≠ '%' ∧ c ≠ '>' := by simpa using hsign
    simp only [List.mem_cons, List.mem_append, List.not_mem_nil, or_false] at hmem
    rcases hmem with rfl | rfl | hmem | hmem | hmem | rfl | rfl
    · exact absurd rfl hne.1
    · exact absurd rfl hne.2.1
    · rw [hbefore c hmem] at hblank
      cases hblank
    · rw [hchars c hmem] at hkey
      cases hkey
    · rw [hafter c hmem] at hblank
      cases hblank
    · exact absurd rfl hne.2.1
    · exact absurd rfl hne.2.2

/-- What closes something was there before. -/
theorem Sheds.inside (h : Sheds old new) (hneedle : Closes needle) (hinside : needle <:+: new) :
    needle <:+: old := by
  induction h with
  | nil => exact hinside
  | text hread hrest ih =>
      rcases List.infix_cons_iff.1 hinside with hbegins | hinside
      · exact ((Sheds.text hread hrest).begins hneedle.opening hbegins).isInfix
      · exact (ih hinside).trans (List.suffix_cons _ _).isInfix
  | @mark written rest new mark hread hrest ih =>
      rcases List.infix_append_iff.1 hinside with
        hinside | hinside | ⟨first, second, rfl, hfirst, hsecond⟩
      · exact hinside.trans (List.prefix_append written rest).isInfix
      · exact (ih hinside).trans (List.suffix_append written rest).isInfix
      · have hopen : '<' ∉ second := fun hmem => hneedle.opening (List.mem_append_right _ hmem)
        have hbegins := hrest.begins hopen hsecond
        exact List.infix_append_iff.2 (.inr (.inr ⟨first, second, rfl, hfirst, hbegins⟩))
  | @argument written argument before after rest new keyword hread hkeyword hbefore hafter hrest ih =>
      have htag := infix_of_bareTag hread hkeyword hbefore hafter hneedle
      rcases List.infix_append_iff.1 hinside with
        hinside | hinside | ⟨first, second, rfl, hfirst, hsecond⟩
      · exact (htag hinside).trans (List.prefix_append written rest).isInfix
      · exact (ih hinside).trans (List.suffix_append written rest).isInfix
      · have hend : first <:+ '<' :: '%' :: (before ++ (keyword.toList ++ (after ++ ['%']))) ++ ['>'] := by
          simpa using hfirst
        rcases hneedle.of_suffix hend with rfl | rfl
        · exact (ih hsecond.isInfix).trans (List.suffix_append written rest).isInfix
        · rw [List.append_nil] at htag ⊢
          exact (htag hfirst.isInfix).trans (List.prefix_append written rest).isInfix

/-- A path that ends in front of a text ends there when the text is without arguments. -/
theorem Sheds.replaces (h : Sheds old new) : Replaces new old where
  head := h.head?
  behindDot hdot := by
    obtain ⟨rest, rfl⟩ := List.head?_eq_some_iff.1 hdot
    obtain ⟨tail, rfl, htail⟩ := h.of_cons (read?_of_head (by decide))
    exact htail.head?
  closing hmem := by
    rw [← List.singleton_infix_iff] at hmem ⊢
    exact h.inside closes_parenthesis hmem

/-! ## Marks that begin -/

section Readers

variable {found : Mark × List Char}

-- Each reader reads something only if it read something before: what it looks at in front of the first
-- tag is unchanged, and what closes it was there.

/-- A comment that is read without the arguments was read with them. -/
theorem isSome_readComment? (h : Sheds rest new) (hread : Mark.readComment? (c :: new) = some found) :
    (Mark.readComment? (c :: rest)).isSome = true := by
  unfold Mark.readComment? at hread
  split at hread
  · rename_i inner hinner
    cases hinner
    obtain ⟨old, rfl, hold⟩ : ∃ old, rest = ['%', '-', '-'] ++ old ∧ Sheds old inner :=
      h.of_new_text (by simp)
    obtain ⟨_, hcut, -⟩ := Option.map_eq_some_iff.1 hread
    have hinside := isSome_cut?_iff.1 (Option.isSome_of_eq_some hcut)
    change (Option.map _ (cut? _ old)).isSome = true
    rw [Option.isSome_map]
    exact isSome_cut?_iff.2 (hold.inside closes_comment hinside)
  · cases hread

theorem isSome_readBlock? (h : Sheds rest new) (hread : Mark.readBlock? (c :: new) = some found) :
    (Mark.readBlock? (c :: rest)).isSome = true := by
  obtain ⟨mark, after⟩ := found
  obtain ⟨blanks, keyword, more, between, hnew, hblanks, hne, hkeyword, hmore, hcut, -⟩ :=
    exists_of_readBlock? hread
  cases hnew
  have hsigns : (['<', '$', '\x7b'].all fun d => !isBlank d && !isKeywordChar d) = true := by decide
  have htext : ∀ d ∈ '%' :: (blanks ++ keyword), d ∉ ['<', '$', '\x7b'] := by
    intro d hd hsign
    obtain ⟨hblank, hkey⟩ : isBlank d = false ∧ isKeywordChar d = false := by
      simpa using List.all_eq_true.1 hsigns d hsign
    rcases List.mem_cons.1 hd with rfl | hd
    · exact absurd hsign (by decide)
    · rcases List.mem_append.1 hd with hd | hd
      · rw [hblanks d hd] at hblank
        cases hblank
      · rw [hkeyword d hd] at hkey
        cases hkey
  have hwhole : Sheds rest ('%' :: (blanks ++ keyword) ++ more) := by simpa using h
  obtain ⟨old, rfl, hold⟩ := hwhole.of_new_text htext
  rw [hold.head?] at hmore
  have hinside := isSome_cut?_iff.1 (Option.isSome_of_eq_some hcut)
  rw [List.cons_append, List.append_assoc, readBlock?_of_keyword hblanks hne hkeyword hmore,
    Option.isSome_map]
  exact isSome_cut?_iff.2 (hold.inside closes_tag hinside)

/-- A path that is read without the arguments was read with them. -/
theorem exists_splitPath? (h : Sheds old new) {parts : List Char × List Char}
    (hpath : splitPath? new = some parts) : ∃ parts, splitPath? old = some parts := by
  rw [← Option.ne_none_iff_exists']
  intro hnone
  rw [splitPath?_eq_none_iff, ← h.head?, ← splitPath?_eq_none_iff, hpath] at hnone
  cases hnone

theorem isSome_readBare? (h : Sheds rest new) (hread : Mark.readBare? (c :: new) = some found) :
    (Mark.readBare? (c :: rest)).isSome = true := by
  unfold Mark.readBare? at hread
  split at hread
  · rename_i inner hinner
    cases hinner
    obtain ⟨_, hpath, -⟩ := Option.map_eq_some_iff.1 hread
    obtain ⟨parts, hparts⟩ := exists_splitPath? h hpath
    rw [Mark.readBare?, hparts]
    rfl
  · cases hread

/-- A path that is read behind a dollar sign was read there before, to the same end. -/
theorem splitPath?_of_sheds {old : List Char} (h : Sheds ('$' :: old) ('$' :: new)) {path tail : List Char}
    (hpath : splitPath? new = some (path, tail)) :
    ∃ after, splitPath? old = some (path, after) ∧ Sheds after tail := by
  cases hold : splitPath? old with
  | none =>
      have hhead : ∀ d ∈ old.head?, Identifier.isStart d = false := splitPath?_eq_none_iff.1 hold
      have hnone : Mark.read? ('$' :: old) = none := by
        apply read?_eq_none
        · exact fun h => absurd (List.cons_prefix_cons.1 h).1 (by decide)
        · intro d hd hbegins
          obtain ⟨others, rfl⟩ := (List.cons_prefix_cons.1 hbegins).2
          rw [hhead d rfl] at hd
          cases hd
        · exact fun d _ h => absurd (List.cons_prefix_cons.1 h).1 (by decide)
      obtain ⟨inner, heq, hinner⟩ := h.of_cons hnone
      cases heq
      obtain ⟨parts, hparts⟩ := exists_splitPath? hinner hpath
      rw [hold] at hparts
      cases hparts
  | some parts =>
      obtain ⟨first, after⟩ := parts
      have hwhole := append_of_splitPath? hold
      have hbare : Mark.readBare? ('$' :: old) = some (.lookup first, after) := by
        rw [Mark.readBare?, hold]
        rfl
      have hread := Mark.read?_of_readBare? hbare
      rw [← hwhole] at h hread
      have hwritten : Sheds ('$' :: first ++ after) ('$' :: new) := h
      have hmark : ∀ keyword argument, Mark.lookup first ≠ .block keyword argument := by
        intro keyword argument heq
        cases heq
      obtain ⟨later, hnew, hlater⟩ := hwritten.of_read? hread hmark
      obtain rfl : new = first ++ later := (List.cons.inj hnew).2
      rw [splitPath?_of_replaces hold hlater.replaces] at hpath
      cases hpath
      exact ⟨after, rfl, hlater⟩

theorem isSome_readBraced? (h : Sheds rest new) (hread : Mark.readBraced? (c :: new) = some found) :
    (Mark.readBraced? (c :: rest)).isSome = true := by
  unfold Mark.readBraced? at hread
  split at hread
  · rename_i inner hinner
    cases hinner
    split at hread
    · rename_i path tail hpath
      obtain ⟨old, rfl⟩ := List.head?_eq_some_iff.1 h.head?.symm
      obtain ⟨after, hold, hafter⟩ := splitPath?_of_sheds h hpath
      obtain ⟨others, rfl⟩ := List.head?_eq_some_iff.1 hafter.head?.symm
      rw [Mark.readBraced?, hold]
      rfl
    · cases hread
  · cases hread

end Readers

/-- No mark begins where none began before. -/
theorem Sheds.read?_eq_none (h : Sheds rest new) (hnone : Mark.read? (c :: rest) = none) :
    Mark.read? (c :: new) = none := by
  rw [Option.eq_none_iff_forall_ne_some]
  intro found hread
  have hbefore : ∃ found, Mark.read? (c :: rest) = some found := by
    rcases Mark.read?_cases hread with hread | hread | hread | hread
    · obtain ⟨before, hbefore⟩ := Option.isSome_iff_exists.1 (isSome_readComment? h hread)
      exact ⟨before, Mark.read?_of_readComment? hbefore⟩
    · obtain ⟨before, hbefore⟩ := Option.isSome_iff_exists.1 (isSome_readBlock? h hread)
      exact ⟨before, Mark.read?_of_readBlock? hbefore⟩
    · obtain ⟨before, hbefore⟩ := Option.isSome_iff_exists.1 (isSome_readBraced? h hread)
      exact ⟨before, Mark.read?_of_readBraced? hbefore⟩
    · obtain ⟨before, hbefore⟩ := Option.isSome_iff_exists.1 (isSome_readBare? h hread)
      exact ⟨before, Mark.read?_of_readBare? hbefore⟩
  obtain ⟨before, hbefore⟩ := hbefore
  rw [hnone] at hbefore
  cases hbefore

end Sheds

/-! ## The cut -/

/-- The piece is as it was, or it is a tag that asks for nothing, without its argument. -/
inductive Piece.Sheds : Piece → Piece → Prop where
  | same (piece : Piece) : Sheds piece piece
  | argument {keyword : String} (hkeyword : keyword ∈ bareKeywords) (argument written new : List Char) :
      Sheds (.mark written (.block keyword.toList argument)) (.mark new (.block keyword.toList []))

/-- A character in front of the pieces stands in front of what is left of them, too. -/
theorem forall₂_consText {pieces others : List Piece} (h : List.Forall₂ Piece.Sheds pieces others)
    (c : Char) :
    List.Forall₂ Piece.Sheds (consText c pieces) (consText c others) := by
  cases h with
  | nil => exact .cons (.same _) .nil
  | @cons piece other pieces others hfirst hrest =>
      cases hfirst with
      | same =>
          cases piece with
          | text content => exact .cons (.same _) hrest
          | mark written mark => exact .cons (.same _) (.cons (.same _) hrest)
      | argument hkeyword => exact .cons (.same _) (.cons (.argument hkeyword _ _ _) hrest)

/-- **Cut**: a template without arguments is cut where it was cut with them. -/
theorem Sheds.forall₂_split {old new : List Char} (h : Sheds old new) :
    List.Forall₂ Piece.Sheds (split old) (split new) := by
  induction h with
  | nil =>
      rw [split]
      exact .nil
  | text hread hrest ih =>
      rw [split_of_read?_eq_none hread, split_of_read?_eq_none (hrest.read?_eq_none hread)]
      exact forall₂_consText ih _
  | mark hread hrest ih =>
      rw [split_of_read? hread, split_of_read? (read?_of_replaces hread hrest.replaces)]
      simpa using List.Forall₂.cons (.same _) ih
  | argument hread hkeyword hbefore hafter hrest ih =>
      have hkey := isKeyword_of_bare hkeyword
      rw [split_of_read? hread, split_of_read? (read?_bareTag hkey hbefore hafter _)]
      exact .cons (.argument hkeyword _ _ _) ih

/-- Every argument among the pieces is one that its tag asks for. -/
def ArgumentsRead (pieces : List Piece) : Prop :=
  ∀ written keyword argument, .mark written (.block keyword argument) ∈ pieces →
    String.ofList keyword ∈ bareKeywords → argument = []

/-- Every template can do without the arguments of tags that ask for nothing. -/
theorem exists_sheds (cs : List Char) : ∃ new, Sheds cs new ∧ ArgumentsRead (split new) := by
  fun_induction split cs with
  | case1 =>
      refine ⟨[], .nil, ?_⟩
      rw [split]
      intro written keyword argument hmem
      cases hmem
  | case2 c rest mark after hread hshorter ih =>
      obtain ⟨new, hnew, hrest⟩ := ih
      obtain ⟨written, -, hwritten⟩ := Mark.leaves_of_read? hread
      rw [← hwritten] at hread ⊢
      by_cases hbare : ∃ keyword argument, mark = .block (String.toList keyword) argument ∧
          keyword ∈ bareKeywords
      · obtain ⟨keyword, argument, rfl, hkeyword⟩ := hbare
        have hblank : ∀ d ∈ ([] : List Char), isBlank d = true := by
          intro d hd
          cases hd
        refine ⟨_, .argument hread hkeyword hblank hblank hnew, ?_⟩
        rw [split_of_read? (read?_bareTag (isKeyword_of_bare hkeyword) hblank hblank new)]
        intro found keyword argument hmem hkeyword
        rcases List.mem_cons.1 hmem with heq | hmem
        · cases heq
          rfl
        · exact hrest found keyword argument hmem hkeyword
      · refine ⟨written ++ new, .mark hread hnew, ?_⟩
        rw [split_of_read? (read?_of_replaces hread hnew.replaces)]
        intro found keyword argument hmem hkeyword
        rcases List.mem_cons.1 hmem with heq | hmem
        · cases heq
          exact absurd ⟨String.ofList keyword, argument, by rw [String.toList_ofList], hkeyword⟩ hbare
        · exact hrest found keyword argument hmem hkeyword
  | case3 c rest hnone ih =>
      obtain ⟨new, hnew, hrest⟩ := ih
      refine ⟨c :: new, .text hnone hnew, ?_⟩
      rw [split_of_read?_eq_none (hnew.read?_eq_none hnone)]
      exact fun written keyword argument hmem => hrest written keyword argument (mem_consText hmem)

end ComponentTemplates.Template
