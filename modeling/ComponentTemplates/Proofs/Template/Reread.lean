/-
Module: ComponentTemplates.Proofs.Template.Reread
Purpose: A mark that is read in front of a text is read in front of others. A comment and a block tag end
  with what closes them. A path ends where nothing continues it, so the other text must begin alike and
  must not close a parenthesis that has been left open. Main statement: in front of such a text, the same
  mark is read, up to the same place (`read?_of_replaces`).
Main exports: Replaces, splitPath?_of_replaces, read?_of_replaces
-/
import ComponentTemplates.Proofs.Template.Split

namespace ComponentTemplates.Template

open Text

/-- A path that ends in front of `old` ends in front of `new`, too. -/
structure Replaces (new old : List Char) : Prop where
  head : new.head? = old.head?
  /-- Behind a dot, a further step may begin. -/
  behindDot : old.head? = some '.' → new.tail.head? = old.tail.head?
  closing : ')' ∈ new → ')' ∈ old

/-- A text in front of both leaves what replaces what as it is. -/
theorem Replaces.behind {new old : List Char} (h : Replaces new old) (written : List Char) :
    Replaces (written ++ new) (written ++ old) := by
  cases written with
  | nil => exact h
  | cons c others =>
      refine ⟨rfl, fun _ => ?_, ?_⟩
      · cases others with
        | nil => exact h.head
        | cons d more => rfl
      · intro hmem
        rw [List.mem_append] at hmem ⊢
        exact hmem.imp_right h.closing

/-! ## Paths -/

section Paths

variable {cs name args step steps path old new : List Char}

/-- What follows an identifier does not continue it. -/
theorem isRest_of_split? (h : Identifier.split? cs = some (name, old)) :
    ∀ c ∈ old.head?, Identifier.isRest c = false := by
  cases cs with
  | nil => cases h
  | cons d rest =>
      rw [Identifier.split?, Option.ite_none_right_eq_some] at h
      obtain ⟨_, heq⟩ := h
      cases heq
      intro c hc
      have hhead := List.head?_dropWhile_not Identifier.isRest rest
      rw [hc] at hhead
      exact hhead

/-- A name is split off as before if the next character is the same. -/
theorem split?_of_head (h : Identifier.split? cs = some (name, old)) (hnew : new.head? = old.head?) :
    Identifier.split? (name ++ new) = some (name, new) := by
  apply Identifier.split?_append (Identifier.isIdentifier_of_split? h)
  rw [hnew]
  exact isRest_of_split? h

theorem splitArguments_of_replaces (h : splitArguments cs = (args, old)) (hnew : Replaces new old) :
    splitArguments (args ++ new) = (args, new) := by
  unfold splitArguments at h
  split at h
  · rename_i rest
    split at h
    · rename_i inner after hcut
      cases h
      have hcut' := cut?_append hcut new
      rw [List.cons_append, List.cons_append, splitArguments, hcut']
      rfl
    · rename_i hcut
      cases h
      obtain ⟨others, rfl⟩ : ∃ others, new = '(' :: others := List.head?_eq_some_iff.1 hnew.head
      have hopen : ')' ∉ others := by
        intro hmem
        have hclosed := hnew.closing (List.mem_cons_of_mem _ hmem)
        exact cut?_char_eq_none_iff.1 hcut (List.mem_of_ne_of_mem (by decide) hclosed)
      rw [List.nil_append, splitArguments, cut?_char_eq_none_iff.2 hopen]
  · rename_i hhead
    cases h
    rw [List.nil_append]
    apply splitArguments_of_head
    rw [hnew.head]
    rintro c hc rfl
    obtain ⟨rest, rfl⟩ := List.head?_eq_some_iff.1 hc
    exact hhead rest rfl

theorem splitStep?_of_replaces (h : splitStep? cs = some (step, old)) (hnew : Replaces new old) :
    splitStep? (step ++ new) = some (step, new) := by
  obtain ⟨⟨name, rest⟩, hname, heq⟩ := Option.map_eq_some_iff.1 h
  cases heq
  have harguments : splitArguments ((splitArguments rest).1 ++ new) = ((splitArguments rest).1, new) :=
    splitArguments_of_replaces rfl hnew
  have hhead : ((splitArguments rest).1 ++ new).head? = rest.head? := by
    rw [(hnew.behind _).head, append_splitArguments]
  rw [splitStep?, List.append_assoc, split?_of_head hname hhead, Option.map_some]
  dsimp only
  rw [harguments]

/-- A step begins with the first character of a name, or there is none. -/
theorem splitStep?_eq_none_iff :
    splitStep? cs = none ↔ ∀ c ∈ cs.head?, Identifier.isStart c = false := by
  cases cs with
  | nil => exact iff_of_true rfl nofun
  | cons c rest =>
      by_cases hc : Identifier.isStart c = true
      · simp [splitStep?, Identifier.split?, hc]
      · simp [splitStep?, Identifier.split?, hc]

/-- No path is split off exactly where no name can begin. -/
theorem splitPath?_eq_none_iff :
    splitPath? cs = none ↔ ∀ c ∈ cs.head?, Identifier.isStart c = false := by
  rw [splitPath?, Option.map_eq_none_iff, splitStep?_eq_none_iff]

theorem splitSteps_of_replaces (h : splitSteps cs = (steps, old)) (hnew : Replaces new old) :
    splitSteps (steps ++ new) = (steps, new) := by
  fun_induction splitSteps cs generalizing steps with
  | case1 rest step after hstep _ ih =>
      cases h
      have hsteps := ih rfl
      have hafter : Replaces ((splitSteps after).1 ++ new) after := by
        have hbehind := hnew.behind (splitSteps after).1
        rwa [append_splitSteps] at hbehind
      have hnext := splitStep?_of_replaces hstep hafter
      rw [List.cons_append, List.cons_append, List.append_assoc, splitSteps_of_splitStep? hnext, hsteps]
      rfl
  | case2 rest hnone =>
      cases h
      obtain ⟨others, rfl⟩ : ∃ others, new = '.' :: others := List.head?_eq_some_iff.1 hnew.head
      have hothers : splitStep? others = none := by
        rw [splitStep?_eq_none_iff, show others.head? = rest.head? from hnew.behindDot rfl]
        exact splitStep?_eq_none_iff.1 hnone
      rw [List.nil_append, splitSteps]
      split
      · rename_i hsome
        rw [hothers] at hsome
        cases hsome
      · rfl
  | case3 cs hdot =>
      cases h
      rw [List.nil_append]
      unfold splitSteps
      split
      · rename_i others
        obtain ⟨rest, rfl⟩ := List.head?_eq_some_iff.1 hnew.head.symm
        exact absurd rfl (hdot rest)
      · rfl

/-- The same path ends in front of another text that replaces the one behind it. -/
theorem splitPath?_of_replaces (h : splitPath? cs = some (path, old)) (hnew : Replaces new old) :
    splitPath? (path ++ new) = some (path, new) := by
  obtain ⟨⟨step, rest⟩, hstep, heq⟩ := Option.map_eq_some_iff.1 h
  cases heq
  have hsteps : splitSteps ((splitSteps rest).1 ++ new) = ((splitSteps rest).1, new) :=
    splitSteps_of_replaces rfl hnew
  have hrest : Replaces ((splitSteps rest).1 ++ new) rest := by
    have hbehind := hnew.behind (splitSteps rest).1
    rwa [append_splitSteps] at hbehind
  rw [splitPath?, List.append_assoc, splitStep?_of_replaces hstep hrest, Option.map_some]
  dsimp only
  rw [hsteps]

end Paths

/-! ## Marks -/

section Marks

open Mark

variable {cs written old new : List Char} {mark : Mark}

/-- A comment ends with what closes it, whatever comes then. -/
theorem readComment?_append (h : readComment? (written ++ old) = some (mark, old)) (new : List Char) :
    readComment? (written ++ new) = some (mark, new) := by
  unfold readComment? at h
  split at h
  · rename_i rest hwritten
    obtain ⟨⟨before, after⟩, hcut, heq⟩ := Option.map_eq_some_iff.1 h
    cases heq
    rw [← append_of_cut? hcut] at hwritten
    have hwhole : written = ['<', '%', '-', '-'] ++ (before ++ ['-', '-', '%', '>']) :=
      List.append_cancel_right hwritten
    have hcut' := cut?_append hcut new
    rw [hwhole, List.append_assoc, List.cons_append, List.cons_append, List.cons_append, List.cons_append,
      List.nil_append, readComment?, hcut']
    rfl
  · cases h

/-- A block tag has a keyword and goes on to the first closing mark behind it. -/
theorem exists_of_readBlock? (h : readBlock? cs = some (mark, old)) :
    ∃ blanks keyword more between, cs = '<' :: '%' :: (blanks ++ (keyword ++ more)) ∧
      (∀ c ∈ blanks, isBlank c = true) ∧ keyword ≠ [] ∧ (∀ c ∈ keyword, isKeywordChar c = true) ∧
      (∀ c ∈ more.head?, isKeywordChar c = false) ∧ cut? ['%', '>'] more = some (between, old) ∧
      mark = .block keyword (trimBlank between) := by
  obtain ⟨rest, rfl⟩ : ∃ rest, cs = '<' :: '%' :: rest := by
    unfold readBlock? at h
    split at h
    · exact ⟨_, rfl⟩
    · cases h
  obtain ⟨blanks, inner, rfl, hblanks, hinner⟩ := exists_stretch isBlank rest
  obtain ⟨keyword, more, rfl, hkeyword, hmore⟩ := exists_stretch isKeywordChar inner
  have hne : keyword ≠ [] := by
    rintro rfl
    rw [readBlock?] at h
    dsimp only at h
    rw [dropWhile_stretch hblanks hinner, takeWhile_stretch hkeyword hmore] at h
    cases h
  rw [readBlock?_of_keyword hblanks hne hkeyword hmore] at h
  obtain ⟨⟨between, after⟩, hcut, heq⟩ := Option.map_eq_some_iff.1 h
  cases heq
  exact ⟨blanks, keyword, more, between, rfl, hblanks, hne, hkeyword, hmore, hcut, rfl⟩

/-- A block tag ends with what closes it, whatever comes then. -/
theorem readBlock?_append (h : readBlock? (written ++ old) = some (mark, old)) (new : List Char) :
    readBlock? (written ++ new) = some (mark, new) := by
  obtain ⟨blanks, keyword, more, between, hwritten, hblanks, hne, hkeyword, hmore, hcut, rfl⟩ :=
    exists_of_readBlock? h
  obtain rfl := append_of_cut? hcut
  have hwhole : written ++ old = '<' :: '%' :: (blanks ++ (keyword ++ (between ++ ['%', '>']))) ++ old := by
    simpa using hwritten
  have hnew : ∀ c ∈ (between ++ ['%', '>'] ++ new).head?, isKeywordChar c = false := by
    cases between with
    | nil => exact hmore
    | cons d others => exact hmore
  have hread := readBlock?_of_keyword hblanks hne hkeyword hnew
  rw [cut?_append hcut, Option.map_some] at hread
  rw [List.append_cancel_right hwhole]
  simpa using hread

/-- Behind a path in braces comes the closing one, whatever comes then. -/
theorem readBraced?_of_replaces (h : readBraced? (written ++ old) = some (mark, old))
    (hnew : Replaces new old) : readBraced? (written ++ new) = some (mark, new) := by
  unfold readBraced? at h
  split at h
  · rename_i rest hwritten
    split at h
    · rename_i path after hpath
      cases h
      rw [← append_of_splitPath? hpath] at hwritten
      have hwhole : written ++ old = ['\x7b', '$'] ++ (path ++ ['\x7d']) ++ old := by
        simpa using hwritten
      have hsplit : splitPath? (path ++ ('\x7d' :: new)) = some (path, '\x7d' :: new) :=
        splitPath?_of_replaces hpath (hnew.behind ['\x7d'])
      rw [List.append_cancel_right hwhole, List.append_assoc, List.append_assoc, List.cons_append,
        List.cons_append, List.nil_append, List.singleton_append, readBraced?, hsplit]
      rfl
    · cases h
  · cases h

/-- A variable is read as before in front of what replaces the rest. -/
theorem readBare?_of_replaces (h : readBare? (written ++ old) = some (mark, old))
    (hnew : Replaces new old) : readBare? (written ++ new) = some (mark, new) := by
  unfold readBare? at h
  split at h
  · rename_i rest hwritten
    obtain ⟨⟨path, after⟩, hpath, heq⟩ := Option.map_eq_some_iff.1 h
    cases heq
    rw [← append_of_splitPath? hpath] at hwritten
    have hwhole : written = '$' :: path := List.append_cancel_right hwritten
    rw [hwhole, List.cons_append, readBare?, splitPath?_of_replaces hpath hnew]
    rfl
  · cases h

/-- **Rereading**: a mark is read in front of another text as it is in front of the one that the other
text replaces. -/
theorem read?_of_replaces (h : read? (written ++ old) = some (mark, old)) (hnew : Replaces new old) :
    read? (written ++ new) = some (mark, new) := by
  rcases read?_cases h with h | h | h | h
  · exact read?_of_readComment? (readComment?_append h new)
  · exact read?_of_readBlock? (readBlock?_append h new)
  · exact read?_of_readBraced? (readBraced?_of_replaces h hnew)
  · exact read?_of_readBare? (readBare?_of_replaces h hnew)

end Marks

end ComponentTemplates.Template
