/-
Module: ComponentTemplates.Proofs.Template.Split
Purpose: The cut of a template, as it is written. Plain text holds no beginning of a mark; in front of a
  mark or at the end it is one piece (`split_text`). A mark is read as a whole whatever follows it
  (`read?_insertion`, `read?_tag`), so no mark begins inside text or runs on into what is behind it.
Main exports: PlainText, AtMark, tag, read?_insertion, read?_tag, split_of_read?, split_text
-/
import ComponentTemplates.Proofs.Lookup.Written
import ComponentTemplates.Template.Mark
import Mathlib.Data.List.Infix

namespace ComponentTemplates.Template

open Lookup Text

/-- Without a parenthesis there are no arguments. -/
theorem splitArguments_of_head {rest : List Char} (hrest : ∀ c ∈ rest.head?, c ≠ '(') :
    splitArguments rest = ([], rest) := by
  unfold splitArguments
  split
  · exact absurd rfl (hrest '(' rfl)
  · rfl

/-- A written step ends where neither its name nor its arguments can go on. -/
theorem splitStep?_written {step : Step} (hstep : step.WellFormed) {rest : List Char}
    (hrest : ∀ c ∈ rest.head?, Identifier.isRest c = false ∧ c ≠ '(') :
    splitStep? (step.written ++ rest) = some (step.written, rest) := by
  have hclose : ')' ∉ writtenArguments step.args :=
    fun hc => (not_mem_reserved_of_mem_writtenArguments hstep hc).2.1 rfl
  unfold splitStep? Step.written
  split
  · rw [Identifier.split?_append hstep.name fun c hc => (hrest c hc).1]
    simp [splitArguments_of_head fun c hc => (hrest c hc).2]
  · rename_i arg others heq
    rw [heq] at hclose
    have hsplit : splitArguments
        ('(' :: (writtenArguments (arg :: others) ++ ')' :: rest)) =
          ('(' :: writtenArguments (arg :: others) ++ [')'], rest) := by
      rw [splitArguments, cut?_char hclose]
    rw [List.append_assoc, List.cons_append, List.append_assoc, List.singleton_append,
      Identifier.split?_append hstep.name (by simp; decide)]
    simp [hsplit]

/-- A step behind a dot is split off in front of further ones. -/
theorem splitSteps_of_splitStep? {cs step rest : List Char} (h : splitStep? cs = some (step, rest)) :
    splitSteps ('.' :: cs) = ('.' :: step ++ (splitSteps rest).1, (splitSteps rest).2) := by
  rw [splitSteps]
  split
  · rename_i found after hfound
    rw [h] at hfound
    cases hfound
    rfl
  · rename_i hnone
    rw [h] at hnone
    cases hnone

section Braced

variable (path : Path) (after : List Char)

/-- What follows a step of a path in braces is a dot or the closing brace. -/
theorem head?_following :
    ∀ c ∈ ((path.flatMap fun step => '.' :: step.written) ++ '\x7d' :: after).head?,
      Identifier.isRest c = false ∧ c ≠ '(' := by
  intro c hc
  cases path with
  | nil =>
      cases hc
      decide
  | cons step rest =>
      cases hc
      decide

/-- Written steps are split off up to the closing brace. -/
theorem splitSteps_written (hsteps : ∀ step ∈ path, step.WellFormed) :
    splitSteps ((path.flatMap fun step => '.' :: step.written) ++ '\x7d' :: after) =
      (path.flatMap fun step => '.' :: step.written, '\x7d' :: after) := by
  induction path with
  | nil => simp [splitSteps]
  | cons step rest ih =>
      have hrest := ih fun other hother => hsteps other (List.mem_cons_of_mem _ hother)
      have hstep := splitStep?_written (hsteps step (List.mem_cons_self ..))
        (head?_following rest after)
      rw [List.flatMap_cons, List.cons_append, List.cons_append, List.append_assoc, splitSteps]
      split
      · rename_i found next hfound
        rw [hstep] at hfound
        cases hfound
        rw [hrest]
        rfl
      · rename_i hnone
        rw [hstep] at hnone
        cases hnone

end Braced

/-- A written path in front of a closing brace is found as a whole. -/
theorem splitPath?_written {path : Path} (hpath : path.WellFormed) (after : List Char) :
    splitPath? (path.written ++ '\x7d' :: after) = some (path.written, '\x7d' :: after) := by
  obtain ⟨step, rest, hrest⟩ := List.exists_cons_of_ne_nil hpath.nonempty
  have hsteps := hpath.steps
  rw [hrest] at hsteps ⊢
  unfold splitPath?
  rw [Path.written_eq_append, List.append_assoc,
    splitStep?_written (hsteps step (List.mem_cons_self ..)) (head?_following rest after)]
  simp [splitSteps_written rest after fun next hnext => hsteps next (List.mem_cons_of_mem _ hnext)]

/-! ## The four readers -/

namespace Mark

variable {cs : List Char} {found : Mark × List Char}

/-- The sign that begins a comment begins no block tag. -/
theorem readComment?_of_readBlock? (h : readBlock? cs = some found) : readComment? cs = none := by
  unfold readComment?
  split
  · rename_i rest
    have hdash : isBlank '-' = false ∧ isKeywordChar '-' = false := by decide
    simp [readBlock?, hdash] at h
  · rfl

theorem read?_of_readComment? (h : readComment? cs = some found) : read? cs = some found := by
  rw [read?, h]
  rfl

theorem read?_of_readBlock? (h : readBlock? cs = some found) : read? cs = some found := by
  rw [read?, readComment?_of_readBlock? h, h]
  rfl

theorem read?_of_readBraced? (h : readBraced? cs = some found) : read? cs = some found := by
  have hearlier : readComment? cs = none ∧ readBlock? cs = none := by
    unfold readBraced? at h
    split at h
    · exact ⟨rfl, rfl⟩
    · cases h
  rw [read?, hearlier.1, hearlier.2, h]
  rfl

theorem read?_of_readBare? (h : readBare? cs = some found) : read? cs = some found := by
  have hearlier : readComment? cs = none ∧ readBlock? cs = none ∧ readBraced? cs = none := by
    unfold readBare? at h
    split at h
    · exact ⟨rfl, rfl, rfl⟩
    · cases h
  rw [read?, hearlier.1, hearlier.2.1, hearlier.2.2, h]
  rfl

/-- What is read is read by one of the four readers. -/
theorem read?_cases (h : read? cs = some found) :
    readComment? cs = some found ∨ readBlock? cs = some found ∨ readBraced? cs = some found ∨
      readBare? cs = some found := by
  simp only [read?, Option.orElse_eq_orElse, Option.orElse_eq_or, Option.or_eq_some_iff] at h
  exact h.imp_right fun h => h.2.imp_right fun h => h.2.imp_right And.right

end Mark

/-! ## Marks as they are written -/

/-- A block tag as it is written: its keyword and, if it has one, its subject behind a dollar sign. -/
def tag (keyword : String) (subject : Option Path) : List Char :=
  ['<', '%', ' '] ++ keyword.toList ++ (subject.elim [] fun path => ' ' :: '$' :: path.written) ++
    [' ', '%', '>']

/-- What a tag reader sees of a subject. -/
def tagArgument (subject : Option Path) : List Char :=
  subject.elim [] fun path => '$' :: path.written

/-- An insertion as it is written. -/
def insertion (path : Path) : List Char :=
  ['\x7b', '$'] ++ path.written ++ ['\x7d']

/-- A written insertion is read as its path. -/
theorem read?_insertion {path : Path} (hpath : path.WellFormed) (rest : List Char) :
    Mark.read? (insertion path ++ rest) = some (.lookup path.written, rest) := by
  have hsplit := splitPath?_written hpath rest
  have hbraced : Mark.readBraced? ('\x7b' :: '$' :: (path.written ++ '\x7d' :: rest)) =
      some (.lookup path.written, rest) := by
    rw [Mark.readBraced?, hsplit]
    rfl
  rw [← Mark.read?_of_readBraced? hbraced]
  simp [insertion]

/-- The argument of a written tag, without the blanks around it. -/
theorem trimBlank_tagArgument {subject : Option Path} (hsubject : ∀ path ∈ subject, path.WellFormed) :
    trimBlank ((subject.elim [] fun path => ' ' :: '$' :: path.written) ++ [' ']) =
      tagArgument subject := by
  cases subject with
  | none => decide
  | some path =>
      have hpath := hsubject path rfl
      obtain ⟨c, rest, hwritten, _⟩ := Path.written_eq_cons hpath
      have hlast := Path.isBlank_last hpath
      have hpathTrim : trimBlank ('$' :: path.written) = '$' :: path.written := by
        apply trimBlank_of_ends
        · intro d hd
          cases hd
          decide
        · rw [hwritten] at hlast ⊢
          rwa [List.getLast?_cons_cons]
      have hblank : ∀ c ∈ [' '], isBlank c = true := List.all_eq_true.1 (by decide)
      exact (trimBlank_in_blanks hblank hblank).trans hpathTrim

theorem isBlank_of_isKeywordChar {c : Char} (h : isKeywordChar c = true) : isBlank c = false := by
  apply Identifier.isBlank_of_isRest
  rcases Bool.or_eq_true_iff.1 h with h | h
  · simp [Identifier.isRest, Identifier.isStart, Identifier.isLetter, h]
  · simp [Identifier.isRest, Identifier.isStart, h]

/-- A word that a tag can begin with. -/
structure IsKeyword (keyword : String) : Prop where
  nonempty : keyword.toList ≠ []
  chars : keyword.toList.all isKeywordChar = true

/-- Behind its keyword, a block tag goes on to the first closing mark. -/
theorem readBlock?_of_keyword {blanks keyword rest : List Char} (hblanks : ∀ c ∈ blanks, isBlank c = true)
    (hne : keyword ≠ []) (hkeyword : ∀ c ∈ keyword, isKeywordChar c = true)
    (hrest : ∀ c ∈ rest.head?, isKeywordChar c = false) :
    Mark.readBlock? ('<' :: '%' :: (blanks ++ (keyword ++ rest))) =
      (cut? ['%', '>'] rest).map fun (argument, after) =>
        (.block keyword (trimBlank argument), after) := by
  have hinner : (blanks ++ (keyword ++ rest)).dropWhile isBlank = keyword ++ rest := by
    apply dropWhile_stretch hblanks
    intro c hc
    rw [List.head?_append_of_ne_nil _ hne] at hc
    exact isBlank_of_isKeywordChar (hkeyword c (List.mem_of_mem_head? hc))
  rw [Mark.readBlock?]
  dsimp only
  rw [hinner, takeWhile_stretch hkeyword hrest, dropWhile_stretch hkeyword hrest,
    if_neg (by simpa using hne)]

/-- A tag ends where it is written to end: no path holds a percent sign. -/
theorem read?_tag {keyword : String} (hkeyword : IsKeyword keyword) {subject : Option Path}
    (hsubject : ∀ path ∈ subject, path.WellFormed) (rest : List Char) :
    Mark.read? (tag keyword subject ++ rest) =
      some (.block keyword.toList (tagArgument subject), rest) := by
  obtain ⟨between, hbetween, hblank, hpercent⟩ : ∃ between,
      between = (subject.elim [] fun path => ' ' :: '$' :: path.written) ++ [' '] ∧
        between.head? = some ' ' ∧ '%' ∉ between := by
    cases subject with
    | none => exact ⟨_, rfl, rfl, by decide⟩
    | some path => exact ⟨_, rfl, rfl, by simp [Path.percent_not_mem_written (hsubject path rfl)]⟩
  have htag : tag keyword subject ++ rest =
      '<' :: '%' :: ([' '] ++ (keyword.toList ++ (between ++ '%' :: '>' :: rest))) := by
    simp [tag, hbetween]
  have hhead : ∀ c ∈ (between ++ '%' :: '>' :: rest).head?, isKeywordChar c = false := by
    rw [List.head?_append, hblank]
    intro c hc
    cases hc
    decide
  have hcut : cut? ['%', '>'] (between ++ '%' :: '>' :: rest) = some (between, rest) := by
    have hcut : cut? ('%' :: ['>']) (between ++ '%' :: ['>'] ++ rest) = some (between, rest) :=
      cut?_of_not_mem hpercent rest
    rwa [List.append_assoc] at hcut
  have hblanks : ∀ c ∈ [' '], isBlank c = true := List.all_eq_true.1 (by decide)
  have hread := readBlock?_of_keyword hblanks hkeyword.nonempty (List.all_eq_true.1 hkeyword.chars) hhead
  rw [hcut, Option.map_some] at hread
  dsimp only at hread
  rw [hbetween, trimBlank_tagArgument hsubject, ← hbetween, ← htag] at hread
  exact Mark.read?_of_readBlock? hread

/-! ## The cut -/

/-- A mark is cut off where it is read. -/
theorem split_of_read? {cs rest : List Char} {mark : Mark} (h : Mark.read? cs = some (mark, rest)) :
    split cs = .mark (cs.take (cs.length - rest.length)) mark :: split rest := by
  cases cs with
  | nil => cases h
  | cons c others =>
      rw [split]
      split
      · rename_i found after hfound
        rw [h] at hfound
        cases hfound
        rfl
      · rename_i hnone
        rw [h] at hnone
        cases hnone

/-- A character that no mark begins with is text. -/
theorem split_of_read?_eq_none {c : Char} {rest : List Char} (h : Mark.read? (c :: rest) = none) :
    split (c :: rest) = consText c (split rest) := by
  rw [split]
  split
  · rename_i found after hfound
    rw [h] at hfound
    cases hfound
  · rfl

/-- Text without the beginning of a tag and without a dollar sign that a name follows. -/
structure PlainText (text : List Char) : Prop where
  tag : ¬['<', '%'] <:+: text
  dollar : ∀ c, Identifier.isStart c = true → ¬['$', c] <:+: text

/-- Only characters of the text itself can stand behind a dollar sign in it. -/
instance (text : List Char) : Decidable (PlainText text) :=
  decidable_of_iff
    (¬['<', '%'] <:+: text ∧
      (text.all fun c => Identifier.isStart c = true → ¬['$', c] <:+: text) = true)
    ⟨fun h => ⟨h.1, fun c hc hinner =>
        of_decide_eq_true (List.all_eq_true.1 h.2 c (hinner.subset (by simp))) hc hinner⟩,
      fun h => ⟨h.tag, List.all_eq_true.2 fun c _ => decide_eq_true (h.dollar c)⟩⟩

/-- The text is over, or begins with a tag or with a path in braces. -/
def AtMark (cs : List Char) : Prop :=
  cs = [] ∨ (cs.head? = some '<' ∨ cs.head? = some '\x7b') ∧
    ∃ mark rest, Mark.read? cs = some (mark, rest)

theorem isStart_of_splitPath? {cs path rest : List Char} (h : splitPath? cs = some (path, rest)) :
    ∃ c others, cs = c :: others ∧ Identifier.isStart c = true := by
  cases cs with
  | nil => cases h
  | cons c others =>
      refine ⟨c, others, rfl, ?_⟩
      by_contra hc
      have hnone : Identifier.split? (c :: others) = none := by
        rw [Identifier.split?, if_neg hc]
      simp [splitPath?, splitStep?, hnone] at h

/-- A mark begins with `<%`, or with a dollar sign in front of a name, in a brace or not. -/
theorem read?_eq_none {cs : List Char} (htag : ¬['<', '%'] <+: cs)
    (hdollar : ∀ c, Identifier.isStart c = true → ¬['$', c] <+: cs)
    (hbraced : ∀ c, Identifier.isStart c = true → ¬['\x7b', '$', c] <+: cs) :
    Mark.read? cs = none := by
  have hcomment : Mark.readComment? cs = none := by
    unfold Mark.readComment?
    split
    · exact absurd (by simp) htag
    · rfl
  have hblock : Mark.readBlock? cs = none := by
    unfold Mark.readBlock?
    split
    · exact absurd (by simp) htag
    · rfl
  have hbrace : Mark.readBraced? cs = none := by
    unfold Mark.readBraced?
    split
    · rename_i rest
      split
      · rename_i path after hpath
        obtain ⟨c, others, rfl, hc⟩ := isStart_of_splitPath? hpath
        exact absurd (by simp) (hbraced c hc)
      · rfl
    · rfl
  have hbare : Mark.readBare? cs = none := by
    unfold Mark.readBare?
    split
    · rename_i rest
      cases hpath : splitPath? rest with
      | none => rfl
      | some found =>
          obtain ⟨c, others, rfl, hc⟩ := isStart_of_splitPath? hpath
          exact absurd (by simp) (hdollar c hc)
    · rfl
  simp [Mark.read?, hcomment, hblock, hbrace, hbare]

/-- In front of a mark, a character is a text of its own. -/
theorem AtMark.split_eq {rest : List Char} (h : AtMark rest) (c : Char) :
    consText c (split rest) = .text [c] :: split rest := by
  rcases h with rfl | ⟨_, mark, after, hread⟩
  · rw [split]
    rfl
  · rw [split_of_read? hread]
    rfl

/-- What two characters the text and what follows it begin with. -/
theorem pair_prefix_append {a b c : Char} {text rest : List Char}
    (h : [a, b] <+: c :: text ++ rest) :
    [a, b] <+: c :: text ∨ text = [] ∧ rest.head? = some b := by
  cases text with
  | nil =>
      right
      cases rest with
      | nil => simp at h
      | cons d others => simp_all
  | cons d others =>
      left
      simp_all

theorem AtMark.head {rest : List Char} (h : AtMark rest) :
    ∀ c ∈ rest.head?, c = '<' ∨ c = '\x7b' := by
  intro c hc
  rcases h with rfl | ⟨hhead | hhead, _⟩
  · cases hc
  · rw [hhead] at hc
    exact .inl (Option.some.inj hc).symm
  · rw [hhead] at hc
    exact .inr (Option.some.inj hc).symm

namespace PlainText

variable {c : Char} {text rest : List Char}

theorem tail (h : PlainText (c :: text)) : PlainText text := by
  have hsuffix : text <:+: c :: text := (List.suffix_cons c text).isInfix
  exact ⟨fun hinner => h.tag (hinner.trans hsuffix),
    fun d hd hinner => h.dollar d hd (hinner.trans hsuffix)⟩

/-- A name does not begin across the end of plain text. -/
theorem not_dollar_prefix (h : PlainText (c :: text)) (hrest : AtMark rest) {d : Char}
    (hd : Identifier.isStart d = true) : ¬['$', d] <+: c :: text ++ rest := by
  intro hbegins
  rcases pair_prefix_append hbegins with hinside | ⟨_, hhead⟩
  · exact h.dollar d hd hinside.isInfix
  · rcases hrest.head d hhead with rfl | rfl
    · exact absurd hd (by decide)
    · exact absurd hd (by decide)

/-- No mark begins inside plain text, be it that it would end behind it. -/
theorem read?_eq_none (h : PlainText (c :: text)) (hrest : AtMark rest) :
    Mark.read? (c :: text ++ rest) = none := by
  apply Template.read?_eq_none
  · intro hbegins
    rcases pair_prefix_append hbegins with hinside | ⟨_, hhead⟩
    · exact h.tag hinside.isInfix
    · rcases hrest.head '%' hhead with heq | heq
      · exact absurd heq (by decide)
      · exact absurd heq (by decide)
  · intro d hd
    exact h.not_dollar_prefix hrest hd
  · intro d hd hbegins
    have hinner : ['$', d] <+: text ++ rest := (List.cons_prefix_cons.1 hbegins).2
    cases text with
    | nil =>
        have hhead : rest.head? = some '$' := by
          obtain ⟨others, hothers⟩ := hinner
          rw [List.nil_append] at hothers
          rw [← hothers]
          rfl
        rcases hrest.head '$' hhead with heq | heq
        · exact absurd heq (by decide)
        · exact absurd heq (by decide)
    | cons next others => exact h.tail.not_dollar_prefix hrest hd hinner

end PlainText

/-- Plain text in front of a mark is one piece. -/
theorem split_text {text rest : List Char} (hne : text ≠ []) (hplain : PlainText text)
    (hrest : AtMark rest) : split (text ++ rest) = .text text :: split rest := by
  induction text with
  | nil => exact absurd rfl hne
  | cons c others ih =>
      have hnone : Mark.read? (c :: (others ++ rest)) = none := hplain.read?_eq_none hrest
      rw [List.cons_append, split_of_read?_eq_none hnone]
      cases others with
      | nil => exact hrest.split_eq c
      | cons next more =>
          rw [ih (List.cons_ne_nil _ _) hplain.tail]
          rfl

/-- A written tag is a mark. -/
theorem atMark_tag {keyword : String} (hkeyword : IsKeyword keyword) {subject : Option Path}
    (hsubject : ∀ path ∈ subject, path.WellFormed) (rest : List Char) :
    AtMark (tag keyword subject ++ rest) :=
  .inr ⟨.inl rfl, _, rest, read?_tag hkeyword hsubject rest⟩

theorem atMark_insertion {path : Path} (hpath : path.WellFormed) (rest : List Char) :
    AtMark (insertion path ++ rest) :=
  .inr ⟨.inr rfl, _, rest, read?_insertion hpath rest⟩

end ComponentTemplates.Template
