/-
Module: ComponentTemplates.Proofs.Template.Cut
Purpose: A template loses no text. It is the text between its marks and the marks, each of them the
  leftmost match behind the one before; its tokens are these texts, so far as there are any, and what
  the marks say, in the same order; and its literals are these texts. A template without marks is a
  page that renders to itself (`ofSource_cuts`).
Main exports: Cuts, TokensOf, exists_cuts, tokensOf_of_cutPieces, ofSource_cuts
-/
import ComponentTemplates.Proofs.Template.Outline
import ComponentTemplates.Proofs.Template.Pattern
import ComponentTemplates.Renderer

namespace ComponentTemplates

open Regex

/-- The text is cut at the matches, each of which has the text in front of it. No match begins in these
texts, and behind a match the next one is looked for. -/
inductive Regex.Cuts (regex : Regex) : List Char → List (List Char × Way) → List Char → Prop where
  | last {cs : List Char} (hnone : ∀ place, place <:+ cs → regex.first? place = none) :
      Cuts regex cs [] cs
  | next {text place last : List Char} {way : Way} {more : List (List Char × Way)}
      (hnone : ∀ inner, inner ≠ [] → inner <:+ text → regex.first? (inner ++ place) = none)
      (hmatch : regex.first? place = some way) (hmore : Cuts regex way.rest more last) :
      Cuts regex (text ++ place) ((text, way) :: more) last

/-- The texts and the matches, one after another, are the text that was cut. -/
theorem Regex.Cuts.written {regex : Regex} {cs last : List Char} {found : List (List Char × Way)}
    (h : regex.Cuts cs found last) :
    cs = (found.flatMap fun (front, way) => front ++ way.taken) ++ last := by
  induction h with
  | last _ => rfl
  | next _ hmatch _ ih =>
      rw [← append_of_mem_ways (List.mem_of_mem_head? hmatch), ih]
      simp

namespace Template

/-- Text is a token if there is any. -/
def textTokens : List Char → List Token
  | [] => []
  | content => [.text (String.ofList content)]

/-- The tokens of matches with the texts in front of them, and of the text behind all of them. A mark is on
the line that is one more than there are line ends before it. -/
inductive TokensOf : List Char → List (List Char × Way) → List Char → List Token → Prop where
  | last {before last : List Char} : TokensOf before [] last (textTokens last)
  | next {before text last : List Char} {way : Way} {more : List (List Char × Way)} {mark : Mark}
      {token : Option Token} {tokens : List Token} (hmark : Marks way mark)
      (htoken : Token.ofMark (1 + (before ++ text).count '\n') mark = .ok token)
      (hmore : TokensOf (before ++ text ++ way.taken) more last tokens) :
      TokensOf before ((text, way) :: more) last (textTokens text ++ token.toList ++ tokens)

/-! ## The cut -/

/-- Text is a piece if there is any. -/
def textPiece : List Char → List Piece
  | [] => []
  | content => [.text content]

/-- The pieces of matches with the texts in front of them, and of the text behind all of them. -/
inductive CutPieces : List (List Char × Way) → List Char → List Piece → Prop where
  | last {last : List Char} : CutPieces [] last (textPiece last)
  | next {text last : List Char} {way : Way} {more : List (List Char × Way)} {mark : Mark}
      {pieces : List Piece} (hmark : Marks way mark) (hmore : CutPieces more last pieces) :
      CutPieces ((text, way) :: more) last (textPiece text ++ .mark way.taken mark :: pieces)

/-- Where a mark is read the expression matches, with groups that say what the mark says. -/
theorem first?_markPattern_of_read? {cs after : List Char} {mark : Mark}
    (h : Mark.read? cs = some (mark, after)) :
    ∃ way, markPattern.first? cs = some way ∧ Marks way mark ∧ way.rest = after := by
  have hagree : Option.Rel Agrees (markPattern.first? cs) (Mark.read? cs) := first?_agrees_read?
  rw [h] at hagree
  generalize markPattern.first? cs = found at hagree
  cases hagree with
  | some hway => exact ⟨_, rfl, hway⟩

/-- Where no mark is read the expression does not match. -/
theorem first?_markPattern_of_read?_eq_none {cs : List Char} (h : Mark.read? cs = none) :
    markPattern.first? cs = none := by
  have hagree : Option.Rel Agrees (markPattern.first? cs) (Mark.read? cs) := first?_agrees_read?
  rw [h] at hagree
  generalize markPattern.first? cs = found at hagree
  cases hagree
  rfl

theorem consText_textPiece (c : Char) (text : List Char) :
    consText c (textPiece text) = textPiece (c :: text) := by
  cases text <;> rfl

theorem consText_textPiece_mark (c : Char) (text written : List Char) (mark : Mark)
    (pieces : List Piece) :
    consText c (textPiece text ++ .mark written mark :: pieces) =
      textPiece (c :: text) ++ .mark written mark :: pieces := by
  cases text <;> rfl

/-- One more character in front, at which nothing matches, joins the text that is in front. -/
theorem exists_cuts_cons {c : Char} {rest last : List Char} {found : List (List Char × Way)}
    {pieces : List Piece} (hnone : markPattern.first? (c :: rest) = none)
    (hcuts : markPattern.Cuts rest found last) (hpieces : CutPieces found last pieces) :
    ∃ found last, markPattern.Cuts (c :: rest) found last ∧
      CutPieces found last (consText c pieces) := by
  cases hcuts with
  | last hlater =>
      cases hpieces
      rw [consText_textPiece]
      refine ⟨[], _, .last ?_, .last⟩
      intro place hplace
      rcases List.suffix_cons_iff.1 hplace with rfl | hplace
      · exact hnone
      · exact hlater place hplace
  | @next text place last way more hlater hmatch hmore =>
      cases hpieces with
      | next hmark hpieces =>
          rw [consText_textPiece_mark]
          have hfront : ∀ inner, inner ≠ [] → inner <:+ c :: text →
              markPattern.first? (inner ++ place) = none := by
            intro inner hne hinner
            rcases List.suffix_cons_iff.1 hinner with rfl | hinner
            · exact hnone
            · exact hlater inner hne hinner
          exact ⟨(c :: text, way) :: more, last, .next hfront hmatch hmore, .next hmark hpieces⟩

/-- Every template is cut at its marks. -/
theorem exists_cuts (cs : List Char) :
    ∃ found last, markPattern.Cuts cs found last ∧ CutPieces found last (split cs) := by
  fun_induction split cs with
  | case1 =>
      refine ⟨[], [], .last ?_, .last⟩
      intro place hplace
      rw [List.suffix_nil.1 hplace]
      exact first?_markPattern_of_read?_eq_none rfl
  | case2 c rest mark after hread hlt ih =>
      obtain ⟨way, hmatch, hmark, rfl⟩ := first?_markPattern_of_read? hread
      obtain ⟨found, last, hcuts, hpieces⟩ := ih
      have hwritten : way.taken ++ way.rest = c :: rest :=
        append_of_mem_ways (List.mem_of_mem_head? hmatch)
      have htaken : (c :: rest).take ((c :: rest).length - way.rest.length) = way.taken := by
        rw [← hwritten]
        simp
      have hfront : ∀ inner, inner ≠ [] → inner <:+ [] →
          markPattern.first? (inner ++ c :: rest) = none :=
        fun inner hne hinner => absurd (List.suffix_nil.1 hinner) hne
      rw [htaken]
      exact ⟨([], way) :: found, last, .next hfront hmatch hcuts, .next hmark hpieces⟩
  | case3 c rest hread ih =>
      obtain ⟨found, last, hcuts, hpieces⟩ := ih
      exact exists_cuts_cons (first?_markPattern_of_read?_eq_none hread) hcuts hpieces

/-! ## Tokens and literals -/

/-- A text in front of pieces is a token in front of theirs, if it is not empty. -/
theorem ofPieces_textPiece {line : Nat} {text : List Char} {pieces : List Piece}
    {tokens : List Token} (h : Token.ofPieces line (textPiece text ++ pieces) = .ok tokens) :
    ∃ others, Token.ofPieces (lineAfter line text) pieces = .ok others ∧
      tokens = textTokens text ++ others := by
  cases text with
  | nil => exact ⟨tokens, h, rfl⟩
  | cons c rest =>
      obtain ⟨others, hothers, heq⟩ := bind_eq_ok.1 h
      exact ⟨others, hothers, (Except.ok.inj heq).symm⟩

/-- The tokens of a template, by its cut. -/
theorem tokensOf_of_cutPieces {before last : List Char} {found : List (List Char × Way)}
    {pieces : List Piece} {tokens : List Token} (h : CutPieces found last pieces)
    (htokens : Token.ofPieces (1 + before.count '\n') pieces = .ok tokens) :
    TokensOf before found last tokens := by
  induction h generalizing before tokens with
  | @last last =>
      rw [← List.append_nil (textPiece last)] at htokens
      obtain ⟨others, hothers, rfl⟩ := ofPieces_textPiece htokens
      cases hothers
      rw [List.append_nil]
      exact .last
  | @next text last way more mark pieces hmark hmore ih =>
      obtain ⟨others, hothers, rfl⟩ := ofPieces_textPiece htokens
      rw [lineAfter_eq] at hothers
      obtain ⟨token, htoken, hrun⟩ := bind_eq_ok.1 hothers
      obtain ⟨later, hlater, heq⟩ := bind_eq_ok.1 hrun
      cases heq
      rw [lineAfter_eq] at hlater
      rw [← List.append_assoc]
      exact .next hmark htoken (ih hlater)

/-- The text of a token, if it is text. -/
def Token.text? : Token → Option String
  | .text content => some content
  | _ => none

/-- The texts in front of matches and behind them, so far as there are any. -/
def texts (found : List (List Char × Way)) (last : List Char) : List String :=
  ((found.map Prod.fst ++ [last]).filter (· ≠ [])).map String.ofList

theorem filterMap_text?_of_ofMark {line : Nat} {mark : Mark} {token : Option Token}
    (h : Token.ofMark line mark = .ok token) : token.toList.filterMap Token.text? = [] := by
  rw [List.filterMap_eq_nil_iff]
  intro found hfound
  cases found with
  | text content => exact absurd (Option.mem_toList.1 hfound) (ofMark_ne_text h content)
  | insertion lookup => rfl
  | block keyword argument line => rfl

/-- The texts among the tokens are those between the matches. -/
theorem filterMap_text?_of_tokensOf {before last : List Char} {found : List (List Char × Way)}
    {tokens : List Token} (h : TokensOf before found last tokens) :
    tokens.filterMap Token.text? = texts found last := by
  induction h with
  | @last before last => cases last <;> rfl
  | @next before text last way more mark token tokens hmark htoken hmore ih =>
      rw [List.filterMap_append, List.filterMap_append, ih, filterMap_text?_of_ofMark htoken]
      cases text <;> rfl

theorem tagEvent?_text? (keyword argument : String) :
    (tagEvent? keyword argument).bind Event.text? = none := by
  unfold tagEvent?
  split <;> simp [Event.text?]

/-- The text of an event is that of the token it is. -/
theorem text?_of_event? {token : Token} {event : Event} (h : token.event? = some event) :
    event.text? = token.text? := by
  cases token with
  | text content =>
      cases h
      rfl
  | insertion lookup =>
      cases h
      rfl
  | block keyword argument line =>
      have hnone := tagEvent?_text? keyword argument
      have hevent : tagEvent? keyword argument = some event := h
      rwa [hevent, Option.bind_some] at hnone

/-- The texts of a program are those of its tokens. -/
theorem filterMap_text?_of_event? {tokens : List Token} {events : List Event}
    (h : tokens.map Token.event? = events.map some) :
    events.filterMap Event.text? = tokens.filterMap Token.text? := by
  induction tokens generalizing events with
  | nil =>
      obtain rfl : events = [] := by simpa using h.symm
      rfl
  | cons token rest ih =>
      cases events with
      | nil => cases h
      | cons event others =>
          obtain ⟨hevent, hothers⟩ := List.cons.inj h
          rw [List.filterMap_cons, List.filterMap_cons, text?_of_event? hevent, ih hothers]

/-! ## Templates without marks -/

/-- Without a match the whole template is one text. -/
theorem split_of_no_match {cs : List Char}
    (h : ∀ place, place <:+ cs → markPattern.first? place = none) : split cs = textPiece cs := by
  obtain ⟨found, last, hcuts, hpieces⟩ := exists_cuts cs
  cases hcuts with
  | last _ =>
      generalize split cs = pieces at hpieces
      cases hpieces
      rfl
  | @next text place last way more _ hmatch _ =>
      rw [h place (List.suffix_append text place)] at hmatch
      cases hmatch

/-- A template without a match renders to itself, whatever is in scope. -/
theorem runProgram_of_no_match {source : String}
    (h : ∀ place, place <:+ source.toList → markPattern.first? place = none) :
    ∃ statements, parseTemplate source = .ok statements ∧
      ∀ host scope, runProgram host scope statements = .ok source := by
  rw [parseTemplate_eq_run, Token.ofSource, split_of_no_match h]
  cases hsource : source.toList with
  | nil =>
      obtain rfl : source = "" := String.toList_inj.1 hsource
      exact ⟨[], rfl, fun _ _ => rfl⟩
  | cons c rest =>
      have hwritten : String.ofList (c :: rest) = source := by
        rw [← hsource, String.ofList_toList]
      refine ⟨[.append .page (.literal source)], ?_, ?_⟩
      · rw [← hwritten]
        rfl
      · intro host scope
        exact congrArg Except.ok String.empty_append

/-- **Cut**: a template whose variables are all lookups is the text between its marks and its marks. Each
mark is the leftmost match behind the one before it, and no match begins in the text between. The tokens
are the texts that are not empty and what the marks say, in this order, and the literals of the program
are the texts. A template in which nothing matches is rendered to itself, whatever the data are. -/
theorem ofSource_cuts {source : String} {tokens : List Token}
    (h : Token.ofSource source = .ok tokens) :
    ∃ found last, markPattern.Cuts source.toList found last ∧
      source.toList = (found.flatMap fun (front, way) => front ++ way.taken) ++ last ∧
      TokensOf [] found last tokens ∧
      (∀ statements, parseTemplate source = .ok statements →
        (Statement.outlineAll statements).filterMap Event.text? = texts found last) ∧
      ((∀ place, place <:+ source.toList → markPattern.first? place = none) →
        ∃ statements, parseTemplate source = .ok statements ∧
          (∀ host scope, runProgram host scope statements = .ok source) ∧
          ∀ (renderer : Renderer) data, renderer.renderTemplate source data = .ok source) := by
  obtain ⟨found, last, hcuts, hpieces⟩ := exists_cuts source.toList
  have htokens : TokensOf [] found last tokens := tokensOf_of_cutPieces hpieces h
  refine ⟨found, last, hcuts, hcuts.written, htokens, ?_, ?_⟩
  · intro statements hparse
    rw [parseTemplate, h, ok_bind] at hparse
    rw [filterMap_text?_of_event? (outlineAll_of_parseTokens hparse),
      filterMap_text?_of_tokensOf htokens]
  · intro hnone
    obtain ⟨statements, hparse, hrun⟩ := runProgram_of_no_match hnone
    refine ⟨statements, hparse, hrun, ?_⟩
    intro renderer data
    rw [Renderer.renderTemplate, compileTemplate, hparse]
    exact hrun _ _

/-- The greeting is cut at its four marks, and a dollar sign in front of a digit stays text. -/
theorem ofSource_cuts_greeting :
    let source := "Hi\n\x7b$Name\x7d<%-- $ --%><% if $Paid %>$5<% end_if %>"
    let tokens : List Token :=
      [.text "Hi\n", .insertion { steps := [{ name := "Name" }] }, .block "if" "$Paid" 2,
        .text "$5", .block "end_if" "" 2]
    Token.ofSource source = .ok tokens ∧
      ∃ found last, markPattern.Cuts source.toList found last ∧ TokensOf [] found last tokens ∧
        texts found last = ["Hi\n", "$5"] ∧
        ∀ statements, parseTemplate source = .ok statements →
          (Statement.outlineAll statements).filterMap Event.text? = ["Hi\n", "$5"] := by
  intro source tokens
  have hok : Token.ofSource source = .ok tokens := by decide +kernel
  obtain ⟨found, last, hcuts, -, htokens, hliterals, -⟩ := ofSource_cuts hok
  have htexts : texts found last = ["Hi\n", "$5"] := (filterMap_text?_of_tokensOf htokens).symm
  refine ⟨hok, found, last, hcuts, htokens, htexts, ?_⟩
  intro statements hparse
  rw [hliterals statements hparse, htexts]

end Template

end ComponentTemplates
