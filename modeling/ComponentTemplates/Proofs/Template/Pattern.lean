/-
Module: ComponentTemplates.Proofs.Template.Pattern
Purpose: The marks of a template as one regular expression. Where its alternatives overlap, the first one
  wins; an argument ends in front of the first closing mark, without the blanks around it. Main statement:
  the reader of marks finds what the expression matches (`first?_agrees_read?`).
Main exports: pathPattern, markPattern, Marks, first?_agrees_read?
-/
import ComponentTemplates.Proofs.Template.Split
import ComponentTemplates.Proofs.Text.Regex

namespace ComponentTemplates.Template

open Regex Text

/-! ## The expression -/

def namePattern : Regex :=
  .set Identifier.isStart ++ (Regex.set Identifier.isRest).many

def argumentsPattern : Regex :=
  .text ['('] ++ ((Regex.set (· != ')')).many ++ .text [')'])

def stepPattern : Regex :=
  namePattern ++ argumentsPattern.optional

/-- A name with or without arguments, and more of them, each behind a dot. -/
def pathPattern : Regex :=
  stepPattern ++ (Regex.text ['.'] ++ stepPattern).many

def blanksPattern : Regex :=
  (Regex.set isBlank).many

def commentPattern : Regex :=
  .group "comment" (.text ['<', '%', '-', '-'] ++ (any.many true ++ .text ['-', '-', '%', '>']))

def keywordPattern : Regex :=
  .group "kw" (Regex.set isKeywordChar).atLeastOnce

/-- The argument of a block tag, and what ends the tag. -/
def argumentPattern : Regex :=
  .group "arg" (any.many true) ++ (blanksPattern ++ .text ['%', '>'])

def blockPattern : Regex :=
  .text ['<', '%'] ++ (blanksPattern ++ (keywordPattern ++ (blanksPattern ++ argumentPattern)))

def bracedPattern : Regex :=
  .text ['\x7b', '$'] ++ (.group "braced" pathPattern ++ .text ['\x7d'])

def barePattern : Regex :=
  .text ['$'] ++ .group "bare" pathPattern

/-- A comment, a block tag, or a path behind a dollar sign, in braces or not. -/
def markPattern : Regex :=
  .either commentPattern (.either blockPattern (.either bracedPattern barePattern))

/-! ## Paths -/

section Paths

variable {cs : List Char} {way : Way}

/-- A name matches as it is split off. -/
theorem first?_namePattern : namePattern.first? cs =
    (Identifier.split? cs).map fun (name, rest) => .plain name rest := by
  cases cs with
  | nil => rfl
  | cons c rest =>
      rw [Identifier.split?]
      by_cases hc : Identifier.isStart c = true
      · rw [if_pos hc]
        have hset : (Regex.set Identifier.isStart).first? (c :: rest) = some (.plain [c] rest) := by
          rw [first?, ways, if_pos hc]
          rfl
        exact first?_seq_of_some hset first?_stretch
      · rw [if_neg hc]
        apply first?_seq_of_first
        rw [first?, ways, if_neg hc]
        rfl

/-- Arguments match as they are split off, if there are any. -/
theorem first?_argumentsPattern : argumentsPattern.optional.first? cs =
    some (.plain (splitArguments cs).1 (splitArguments cs).2) := by
  have hnothing : (Regex.text []).first? cs = some (.plain [] cs) := first?_text_append [] cs
  rw [Regex.optional, first?_either, hnothing]
  unfold splitArguments
  split
  · rename_i rest
    have harguments : argumentsPattern.first? ('(' :: rest) =
        (cut? [')'] rest).map fun (inner, after) => .plain ('(' :: inner ++ [')']) after := by
      have htext : argumentsPattern.first? (['('] ++ rest) = _ := first?_text_seq ['('] rest
      rw [first?_until, Option.map_map] at htext
      exact htext
    rw [harguments]
    split <;> rename_i hcut <;> rw [hcut] <;> rfl
  · rename_i hparenthesis
    have hnone : argumentsPattern.first? cs = none := by
      apply first?_text_seq_of_not_prefix
      rintro ⟨rest, rfl⟩
      exact hparenthesis rest rfl
    rw [hnone]
    rfl

theorem first?_stepPattern : stepPattern.first? cs =
    (splitStep? cs).map fun (step, rest) => .plain step rest := by
  rw [stepPattern, first?_seq_of_total fun rest => ⟨_, first?_argumentsPattern⟩,
    first?_namePattern, splitStep?]
  cases Identifier.split? cs with
  | none => rfl
  | some found =>
      obtain ⟨name, rest⟩ := found
      exact congrArg (Option.map (Way.plain name rest).andThen) first?_argumentsPattern

theorem first?_dottedStep (rest : List Char) :
    (Regex.text ['.'] ++ stepPattern).first? ('.' :: rest) =
      (splitStep? rest).map fun (step, after) => .plain ('.' :: step) after := by
  have htext : (Regex.text ['.'] ++ stepPattern).first? (['.'] ++ rest) = _ :=
    first?_text_seq ['.'] rest
  rw [first?_stepPattern, Option.map_map] at htext
  exact htext

theorem first?_stepsPattern : (Regex.text ['.'] ++ stepPattern).many.first? cs =
    some (.plain (splitSteps cs).1 (splitSteps cs).2) := by
  fun_induction splitSteps cs with
  | case1 rest step after h hlength ih =>
      have hstep := first?_dottedStep rest
      rw [h] at hstep
      rw [first?_many_of_some hstep (Nat.lt_succ_of_le hlength)]
      exact congrArg (Option.map (Way.plain ('.' :: step) after).andThen) ih
  | case2 rest h =>
      have hstep := first?_dottedStep rest
      rw [h] at hstep
      exact first?_many_of_none hstep
  | case3 cs h =>
      apply first?_many_of_none
      apply first?_text_seq_of_not_prefix
      rintro ⟨rest, rfl⟩
      exact h rest rfl

/-- A path matches as it is split off. -/
theorem first?_pathPattern : pathPattern.first? cs =
    (splitPath? cs).map fun (path, rest) => .plain path rest := by
  rw [pathPattern, first?_seq_of_total fun rest => ⟨_, first?_stepsPattern⟩, first?_stepPattern,
    splitPath?]
  cases splitStep? cs with
  | none => rfl
  | some found =>
      obtain ⟨step, rest⟩ := found
      exact congrArg (Option.map (Way.plain step rest).andThen) first?_stepsPattern

/-- A way to match a name that ends where the name does is the split. -/
theorem split?_of_mem_ways (h : way ∈ namePattern.ways cs)
    (hrest : ∀ c ∈ way.rest.head?, Identifier.isRest c = false) :
    Identifier.split? cs = some (way.taken, way.rest) := by
  obtain ⟨one, hone, two, htwo, rfl⟩ := mem_ways_seq.1 h
  obtain ⟨c, rest, rfl, hc, rfl⟩ := mem_ways_set hone
  obtain ⟨htaken, -, hclass⟩ := mem_ways_stretch htwo
  have hname : Identifier.isIdentifier (c :: two.taken) = true :=
    Bool.and_eq_true_iff.2 ⟨hc, List.all_eq_true.2 hclass⟩
  have hwritten : c :: rest = c :: two.taken ++ two.rest := congrArg (c :: ·) htaken.symm
  rw [hwritten]
  exact Identifier.split?_append hname hrest

theorem splitArguments_of_mem_ways (h : way ∈ argumentsPattern.optional.ways cs)
    (hrest : ∀ c ∈ way.rest.head?, c ≠ '(') :
    splitArguments cs = (way.taken, way.rest) := by
  rcases List.mem_append.1 h with h | h
  · obtain ⟨one, hone, more, hmore, rfl⟩ := mem_ways_seq.1 h
    obtain ⟨two, htwo, three, hthree, rfl⟩ := mem_ways_seq.1 hmore
    obtain ⟨rest, rfl, rfl⟩ := mem_ways_text hone
    obtain ⟨htaken, -, hclass⟩ := mem_ways_stretch htwo
    obtain ⟨after, hafter, rfl⟩ := mem_ways_text hthree
    have hclose : ')' ∉ two.taken := fun hmem => absurd (hclass ')' hmem) (by decide)
    have hsplit := cut?_char hclose after
    rw [hafter] at htaken
    have hwritten : rest = two.taken ++ ')' :: after := htaken.symm
    subst hwritten
    change splitArguments ('(' :: (two.taken ++ ')' :: after)) = _
    rw [splitArguments, hsplit]
    rfl
  · obtain ⟨rest, rfl, rfl⟩ := mem_ways_text h
    exact splitArguments_of_head hrest

theorem head?_append_of {p : Char → Prop} {taken rest : List Char}
    (htaken : ∀ c ∈ taken.head?, p c) (hrest : ∀ c ∈ rest.head?, p c) :
    ∀ c ∈ (taken ++ rest).head?, p c := by
  cases taken with
  | nil => exact hrest
  | cons c others => exact htaken

theorem head?_splitArguments (cs : List Char) : ∀ c ∈ (splitArguments cs).1.head?, c = '(' := by
  unfold splitArguments
  split
  · split <;> simp
  · simp

theorem head?_splitSteps (cs : List Char) : ∀ c ∈ (splitSteps cs).1.head?, c = '.' := by
  fun_cases splitSteps cs <;> simp_all

/-- A step ends where nothing can continue it, whichever way it is matched. -/
theorem splitStep?_of_mem_ways (h : way ∈ stepPattern.ways cs)
    (hrest : ∀ c ∈ way.rest.head?, Identifier.isRest c = false ∧ c ≠ '(') :
    splitStep? cs = some (way.taken, way.rest) := by
  obtain ⟨one, hone, two, htwo, rfl⟩ := mem_ways_seq.1 h
  have harguments := splitArguments_of_mem_ways htwo fun c hc => (hrest c hc).2
  have hname : ∀ c ∈ one.rest.head?, Identifier.isRest c = false := by
    rw [← append_splitArguments one.rest]
    apply head?_append_of
    · intro c hc
      rw [head?_splitArguments one.rest c hc]
      decide
    · rw [harguments]
      exact fun c hc => (hrest c hc).1
  rw [splitStep?, split?_of_mem_ways hone hname]
  simp [harguments]

/-- No character can continue the path. -/
def EndsPath (rest : List Char) : Prop :=
  ∀ c ∈ rest.head?, Identifier.isRest c = false ∧ c ≠ '(' ∧ c ≠ '.'

/-- In front of further steps, or where none can follow, nothing continues a step. -/
theorem head?_of_splitSteps {taken rest : List Char} (h : splitSteps cs = (taken, rest))
    (hrest : EndsPath rest) : ∀ c ∈ cs.head?, Identifier.isRest c = false ∧ c ≠ '(' := by
  rw [← append_splitSteps cs]
  apply head?_append_of
  · intro c hc
    rw [head?_splitSteps cs c hc]
    decide
  · rw [h]
    exact fun c hc => ⟨(hrest c hc).1, (hrest c hc).2.1⟩

/-- Where no step can follow, none is split off. -/
theorem splitSteps_of_endsPath (h : EndsPath cs) : splitSteps cs = ([], cs) := by
  unfold splitSteps
  split
  · exact absurd rfl (h '.' rfl).2.2
  · rfl

/-- A way to match further steps behind which none can follow is the split. -/
theorem splitSteps_of_mem_ways (h : way ∈ (Regex.text ['.'] ++ stepPattern).many.ways cs)
    (hrest : EndsPath way.rest) : splitSteps cs = (way.taken, way.rest) := by
  induction hlength : cs.length using Nat.strongRecOn generalizing cs way with
  | ind length ih =>
      rcases mem_ways_many h with rfl | ⟨one, hone, two, htwo, hlt, rfl⟩
      · exact splitSteps_of_endsPath hrest
      · have hsteps := ih one.rest.length (hlength ▸ hlt) htwo hrest rfl
        obtain ⟨dot, hdot, step, hstep, rfl⟩ := mem_ways_seq.1 hone
        obtain ⟨rest, rfl, rfl⟩ := mem_ways_text hdot
        have hsplit : splitStep? rest = some (step.taken, step.rest) :=
          splitStep?_of_mem_ways hstep (head?_of_splitSteps hsteps hrest)
        have hsteps : splitSteps step.rest = (two.taken, two.rest) := hsteps
        change splitSteps ('.' :: rest) = ('.' :: step.taken ++ two.taken, two.rest)
        rw [splitSteps_of_splitStep? hsplit, hsteps]

/-- A path ends where nothing can continue it, whichever way it is matched. -/
theorem splitPath?_of_mem_ways (h : way ∈ pathPattern.ways cs) (hrest : EndsPath way.rest) :
    splitPath? cs = some (way.taken, way.rest) := by
  obtain ⟨one, hone, two, htwo, rfl⟩ := mem_ways_seq.1 h
  have hsteps := splitSteps_of_mem_ways htwo hrest
  have hstep := splitStep?_of_mem_ways hone (head?_of_splitSteps hsteps hrest)
  rw [splitPath?, hstep]
  simp [hsteps]

end Paths

/-! ## Marks -/

/-- What the groups of a match say. The argument of a block tag is what stands behind the keyword and the
blanks there, without the blanks at its ends. -/
inductive Marks (way : Way) : Mark → Prop where
  | comment {text : List Char} (hgroups : way.groups = [("comment", text)]) : Marks way .comment
  | block {blanks keyword between : List Char} (hblanks : ∀ c ∈ blanks, isBlank c = true)
      (hwritten : way.taken = ['<', '%'] ++ blanks ++ keyword ++ between ++ ['%', '>'])
      (hgroups : way.groups = [("kw", keyword), ("arg", trimBlank between)]) :
      Marks way (.block keyword (trimBlank between))
  | braced {path : List Char} (hgroups : way.groups = [("braced", path)]) :
      Marks way (.lookup path)
  | bare {path : List Char} (hgroups : way.groups = [("bare", path)]) : Marks way (.lookup path)

/-- The match and the mark that was read leave the same to be read. -/
def Agrees (way : Way) (found : Mark × List Char) : Prop :=
  Marks way found.1 ∧ way.rest = found.2

section Tags

variable {cs : List Char}

theorem percent_not_mem_blanks {blanks : List Char} (h : ∀ c ∈ blanks, isBlank c = true) :
    '%' ∉ blanks :=
  fun hmem => absurd (h '%' hmem) (by decide)

/-- An argument matches up to the first closing mark, with the blanks at its end left out of the group.
-/
theorem first?_argumentPattern : argumentPattern.first? cs =
    (cut? ['%', '>'] cs).map fun (between, after) =>
      { taken := between ++ ['%', '>'], groups := [("arg", dropTrailing isBlank between)],
        rest := after } := by
  rw [argumentPattern, first?_group_lazy_seq, blanksPattern, find?_stretch_text (by decide),
    Option.map_map]
  congr 1
  funext ⟨between, after⟩
  have hbetween := dropTrailing_append_drop isBlank between
  simp only [Function.comp_apply, trimmed, Way.behind, Way.plain]
  rw [← List.append_assoc, hbetween]

/-- Trimming takes the blanks in front away, and then those at the end. -/
theorem trimBlank_behind {blanks between rest : List Char} (hblanks : ∀ c ∈ blanks, isBlank c = true)
    (hrest : ∀ c ∈ (between ++ rest).head?, isBlank c = false) :
    trimBlank (blanks ++ between) = dropTrailing isBlank between := by
  have hbetween : ∀ c ∈ between.head?, isBlank c = false := by
    cases between with
    | nil => simp
    | cons c others => exact hrest
  rw [trimBlank, dropAround, dropWhile_stretch hblanks hbetween]

/-- Blanks and an argument match up to the first closing mark, with all blanks around it left out of the
group. -/
theorem first?_trimmedPattern : (blanksPattern ++ argumentPattern).first? cs =
    (cut? ['%', '>'] cs).map fun (between, after) =>
      { taken := between ++ ['%', '>'], groups := [("arg", trimBlank between)],
        rest := after } := by
  have hsecond : ∀ rest, argumentPattern.first? rest = none ↔ cut? ['%', '>'] rest = none := by
    intro rest
    rw [first?_argumentPattern, Option.map_eq_none_iff]
  have hways : ∀ one ∈ blanksPattern.ways cs, one.taken ++ one.rest = cs ∧ '%' ∉ one.taken := by
    intro one hone
    obtain ⟨htaken, -, hclass⟩ := mem_ways_stretch hone
    exact ⟨htaken, percent_not_mem_blanks hclass⟩
  rw [first?_seq_of_cut hsecond hways first?_stretch, first?_argumentPattern]
  obtain ⟨blanks, rest, rfl, hblanks, hrest⟩ := exists_stretch isBlank cs
  rw [takeWhile_stretch hblanks hrest, dropWhile_stretch hblanks hrest,
    cut?_append_of_not_mem (percent_not_mem_blanks hblanks), Option.map_map, Option.map_map]
  cases hcut : cut? ['%', '>'] rest with
  | none => exact congrArg (Option.map _) hcut
  | some found =>
      obtain ⟨between, after⟩ := found
      rw [← append_of_cut? hcut, List.append_assoc] at hrest
      refine (congrArg (Option.map _) hcut).trans ?_
      simp only [Option.map_some, Function.comp_apply, Way.andThen, Way.plain, List.nil_append,
        List.append_assoc, trimBlank_behind hblanks hrest]

/-- A way to match a keyword cuts the text, and takes no percent sign. -/
theorem mem_ways_keyword {way : Way} (h : way ∈ keywordPattern.ways cs) :
    way.taken ++ way.rest = cs ∧ '%' ∉ way.taken := by
  obtain ⟨body, hbody, rfl⟩ := List.mem_map.1 h
  obtain ⟨one, hone, two, htwo, rfl⟩ := mem_ways_seq.1 hbody
  obtain ⟨c, rest, rfl, hc, rfl⟩ := mem_ways_set hone
  obtain ⟨htaken, -, hclass⟩ := mem_ways_stretch htwo
  refine ⟨congrArg (c :: ·) htaken, ?_⟩
  intro hmem
  have hpercent : isKeywordChar '%' = true := by
    rcases List.mem_cons.1 hmem with rfl | hmem
    · exact hc
    · exact hclass '%' hmem
  exact absurd hpercent (by decide)

/-- Where no character of a keyword stands no keyword matches. -/
theorem first?_keywordPattern_of_head (h : ∀ c ∈ cs.head?, isKeywordChar c = false) :
    keywordPattern.first? cs = none := by
  have hset : (Regex.set isKeywordChar).first? cs = none := by
    cases cs with
    | nil => rfl
    | cons c rest =>
        have hc : isKeywordChar c = false := h c rfl
        rw [first?, ways, hc]
        rfl
  rw [keywordPattern, first?_group, atLeastOnce, first?_seq_of_first hset]
  rfl

/-- A keyword matches all characters that can belong to it. -/
theorem first?_keywordPattern {keyword rest : List Char} (hne : keyword ≠ [])
    (hkeyword : ∀ c ∈ keyword, isKeywordChar c = true)
    (hrest : ∀ c ∈ rest.head?, isKeywordChar c = false) :
    keywordPattern.first? (keyword ++ rest) = some ((Way.plain keyword rest).named "kw") := by
  obtain ⟨c, others, rfl⟩ := List.exists_cons_of_ne_nil hne
  obtain ⟨hc, hothers⟩ := List.forall_mem_cons.1 hkeyword
  have hset : (Regex.set isKeywordChar).first? (c :: (others ++ rest)) =
      some (.plain [c] (others ++ rest)) := by
    rw [first?, ways, if_pos hc]
    rfl
  have hmany : (Regex.set isKeywordChar).many.first? (others ++ rest) = _ := first?_stretch
  rw [takeWhile_stretch hothers hrest, dropWhile_stretch hothers hrest] at hmany
  have hwhole : (Regex.set isKeywordChar).atLeastOnce.first? (c :: others ++ rest) =
      some (.plain (c :: others) rest) := first?_seq_of_some hset hmany
  rw [keywordPattern, first?_group, hwhole]
  rfl

/-- A keyword and an argument match up to the first closing mark. -/
theorem first?_tagPattern {keyword rest : List Char} (hne : keyword ≠ [])
    (hkeyword : ∀ c ∈ keyword, isKeywordChar c = true)
    (hrest : ∀ c ∈ rest.head?, isKeywordChar c = false) :
    (keywordPattern ++ (blanksPattern ++ argumentPattern)).first? (keyword ++ rest) =
      (cut? ['%', '>'] rest).map fun (between, after) =>
        { taken := keyword ++ (between ++ ['%', '>']),
          groups := [("kw", keyword), ("arg", trimBlank between)], rest := after } := by
  have hsecond : ∀ rest, (blanksPattern ++ argumentPattern).first? rest = none ↔
      cut? ['%', '>'] rest = none := by
    intro rest
    rw [first?_trimmedPattern, Option.map_eq_none_iff]
  rw [first?_seq_of_cut hsecond (fun _ => mem_ways_keyword)
    (first?_keywordPattern hne hkeyword hrest), first?_trimmedPattern, Option.map_map]
  rfl

/-- What stands behind the beginning of a block tag: blanks, and what is no blank. -/
theorem first?_blockPattern {blanks inner : List Char} (hblanks : ∀ c ∈ blanks, isBlank c = true)
    (hinner : ∀ c ∈ inner.head?, isBlank c = false) :
    blockPattern.first? ('<' :: '%' :: (blanks ++ inner)) =
      ((keywordPattern ++ (blanksPattern ++ argumentPattern)).first? inner).map
        (·.behind (['<', '%'] ++ blanks)) := by
  have hnext : ∀ c rest, isBlank c = true →
      (keywordPattern ++ (blanksPattern ++ argumentPattern)).first? (c :: rest) = none := by
    intro c rest hc
    apply first?_seq_of_first
    apply first?_keywordPattern_of_head
    rintro d ⟨⟩
    rw [Bool.eq_false_iff]
    intro hd
    rw [isBlank_of_isKeywordChar hd] at hc
    cases hc
  have htext : blockPattern.first? (['<', '%'] ++ (blanks ++ inner)) = _ :=
    first?_text_seq ['<', '%'] (blanks ++ inner)
  have hskip : (blanksPattern ++ (keywordPattern ++ (blanksPattern ++ argumentPattern))).first?
      (blanks ++ inner) = _ := first?_stretch_seq hnext
  rw [takeWhile_stretch hblanks hinner, dropWhile_stretch hblanks hinner] at hskip
  refine htext.trans ((congrArg (Option.map _) hskip).trans ?_)
  rw [Option.map_map]
  rfl

end Tags

section Agreement

variable {cs : List Char}

theorem rel_map {α β γ : Type} {rel : β → γ → Prop} {f : α → β} {g : α → γ} {found : Option α}
    (h : ∀ value, found = some value → rel (f value) (g value)) :
    Option.Rel rel (found.map f) (found.map g) := by
  cases found with
  | none => exact .none
  | some value => exact .some (h value rfl)

theorem rel_or {α β : Type} {rel : α → β → Prop} {first second : Option α} {left right : Option β}
    (hfirst : Option.Rel rel first left) (hsecond : Option.Rel rel second right) :
    Option.Rel rel (first.or second) (left <|> right) := by
  cases hfirst with
  | none => exact hsecond
  | some h => exact .some h

/-- What does not begin with the text of an expression is no match of it, and is not read. -/
theorem agrees_none {start : List Char} {next : Regex} (h : ∀ rest, cs = start ++ rest → False) :
    Option.Rel Agrees ((Regex.text start ++ next).first? cs) none := by
  have hnone : (Regex.text start ++ next).first? cs = none := by
    apply first?_text_seq_of_not_prefix
    rintro ⟨rest, rfl⟩
    exact h rest rfl
  rw [hnone]
  exact .none

/-- Comments match as they are read. -/
theorem agrees_readComment? : Option.Rel Agrees (commentPattern.first? cs) (Mark.readComment? cs) := by
  unfold Mark.readComment?
  split
  · rename_i rest
    have hfirst : commentPattern.first? (['<', '%', '-', '-'] ++ rest) = _ := first?_group
    rw [first?_text_seq, first?_lazy_seq, find?_text, Option.map_map, Option.map_map,
      Option.map_map] at hfirst
    refine hfirst ▸ rel_map ?_
    rintro ⟨before, after⟩ -
    exact ⟨.comment rfl, rfl⟩
  · rename_i hprefix
    have hnone : commentPattern.first? cs = none := by
      rw [commentPattern, first?_group, first?_text_seq_of_not_prefix, Option.map_none]
      rintro ⟨rest, rfl⟩
      exact hprefix rest rfl
    rw [hnone]
    exact .none

theorem agrees_readBlock? : Option.Rel Agrees (blockPattern.first? cs) (Mark.readBlock? cs) := by
  unfold Mark.readBlock?
  split
  · rename_i rest
    dsimp only
    obtain ⟨blanks, inner, rfl, hblanks, hinner⟩ := exists_stretch isBlank rest
    rw [dropWhile_stretch hblanks hinner, first?_blockPattern hblanks hinner]
    obtain ⟨keyword, more, rfl, hkeyword, hmore⟩ := exists_stretch isKeywordChar inner
    rw [takeWhile_stretch hkeyword hmore, dropWhile_stretch hkeyword hmore]
    split
    · rename_i hempty
      obtain rfl := List.isEmpty_iff.1 hempty
      rw [List.nil_append, first?_seq_of_first (first?_keywordPattern_of_head hmore)]
      exact .none
    · rename_i hne
      rw [first?_tagPattern (fun h => hne (List.isEmpty_iff.2 h)) hkeyword hmore, Option.map_map]
      apply rel_map
      rintro ⟨between, after⟩ -
      refine ⟨.block hblanks ?_ rfl, rfl⟩
      simp [Way.behind]
  · rename_i hprefix
    apply agrees_none
    exact hprefix

/-- Of all ways to match a path, only the longest can stand in front of a closing brace. -/
theorem first?_bracedPath_of_not_closed
    (h : ∀ path after, splitPath? cs ≠ some (path, '\x7d' :: after)) :
    (Regex.group "braced" pathPattern ++ .text ['\x7d']).first? cs = none := by
  apply first?_seq_of_none
  intro one hone
  obtain ⟨way, hway, rfl⟩ := List.mem_map.1 hone
  rw [first?_text, if_neg]
  intro hprefix
  obtain ⟨after, hafter⟩ := List.isPrefixOf_iff_prefix.1 hprefix
  have hrest : way.rest = '\x7d' :: after := hafter.symm
  have hends : EndsPath way.rest := by
    rw [hrest]
    rintro c ⟨⟩
    decide
  have hpath := splitPath?_of_mem_ways hway hends
  rw [hrest] at hpath
  exact h way.taken after hpath

theorem agrees_readBraced? : Option.Rel Agrees (bracedPattern.first? cs) (Mark.readBraced? cs) := by
  unfold Mark.readBraced?
  split
  · rename_i rest
    have hfirst : bracedPattern.first? (['\x7b', '$'] ++ rest) = _ :=
      first?_text_seq ['\x7b', '$'] rest
    refine hfirst ▸ ?_
    split
    · rename_i path after hpath
      have hgroup : (Regex.group "braced" pathPattern).first? rest =
          some ((Way.plain path ('\x7d' :: after)).named "braced") := by
        rw [first?_group, first?_pathPattern, hpath]
        rfl
      rw [first?_seq_of_some hgroup (first?_text_append ['\x7d'] after)]
      exact .some ⟨.braced rfl, rfl⟩
    · rename_i hother
      rw [first?_bracedPath_of_not_closed hother]
      exact .none
  · rename_i hprefix
    apply agrees_none
    exact hprefix

theorem agrees_readBare? : Option.Rel Agrees (barePattern.first? cs) (Mark.readBare? cs) := by
  unfold Mark.readBare?
  split
  · rename_i rest
    have hfirst : barePattern.first? (['$'] ++ rest) = _ := first?_text_seq ['$'] rest
    rw [first?_group, first?_pathPattern, Option.map_map, Option.map_map] at hfirst
    refine hfirst ▸ rel_map ?_
    rintro ⟨path, after⟩ -
    exact ⟨.bare rfl, rfl⟩
  · rename_i hprefix
    apply agrees_none
    exact hprefix

/-- What is read as a mark is what the expression matches. -/
theorem first?_agrees_read? : Option.Rel Agrees (markPattern.first? cs) (Mark.read? cs) := by
  rw [markPattern, first?_either, first?_either, first?_either]
  exact rel_or agrees_readComment?
    (rel_or agrees_readBlock? (rel_or agrees_readBraced? agrees_readBare?))

end Agreement

end ComponentTemplates.Template
