/-
Module: ComponentTemplates.Proofs.Template.Arguments
Purpose: Which arguments of block tags are read. Each tag that opens a block or goes on with a condition
  is found in the program at its place, with its argument as what the block or the branch asks for. What
  is written behind the keyword of an `else` or of a closing tag is not read. A template without such
  arguments has the same pieces up to them, but its tags stand on other lines if an argument had line
  breaks; and lines are only told in errors. Main statement: `parseTemplate_arguments`.
Main exports: Token.bare, ParserState.unlined, parseTokens_of_bare_eq, parseTemplate_arguments
-/
import ComponentTemplates.Proofs.Template.BareTags
import ComponentTemplates.Proofs.Template.Outline

namespace ComponentTemplates.Template

open Statement Text

/-! ## Tokens -/

/-- The token without its line, and without the argument of a tag that asks for nothing. -/
def Token.bare : Token → Token
  | .block keyword argument _ => .block keyword (if keyword ∈ bareKeywords then "" else argument) 0
  | token => token

theorem Token.bare_comp_bare : bare ∘ bare = bare := by
  funext token
  cases token with
  | text content => rfl
  | insertion lookup => rfl
  | block keyword argument line =>
      by_cases hbare : keyword ∈ bareKeywords <;> simp [bare, hbare]

/-- Open blocks without the lines they were opened on. -/
def ParserState.unlined (state : ParserState) : ParserState :=
  { state with levels := state.levels.map fun level => { level with line := 0 } }

/-- Whether an argument is a subject, and which, does not depend on keyword and line. -/
theorem toOption_subject (keyword argument : String) (line : Nat) :
    (subject keyword argument line).toOption = Lookup.parse? argument .object := by
  unfold subject
  split
  · rename_i hparse
    rw [hparse]
    rfl
  · rename_i hparse
    rw [hparse]
    rfl

namespace ParserState

variable (state : ParserState)

/-- What a tag asks for is all that is read of its argument, and a line is only told in an error. -/
theorem toOption_openTag_bare (keyword argument : String) (line : Nat) :
    (state.unlined.openTag keyword (if keyword ∈ bareKeywords then "" else argument) 0).toOption =
      (state.openTag keyword argument line).toOption.map unlined := by
  have hread : "if" ∉ bareKeywords ∧ "loop" ∉ bareKeywords ∧ "with" ∉ bareKeywords := by decide
  unfold openTag
  split
  · simp only [toOption_bind, toOption_subject, Option.map_bind, if_neg hread.1]
    rfl
  · simp only [toOption_bind, toOption_subject, Option.map_bind, if_neg hread.2.1]
    rfl
  · simp only [toOption_bind, toOption_subject, Option.map_bind, if_neg hread.2.2]
    rfl
  · rfl

/-- A block tag is accepted without its line, and without an argument that is not read, if it is accepted
with both, and it leads to the same state but for the lines. -/
theorem toOption_blockTag_bare (keyword argument : String) (line : Nat) :
    (state.unlined.blockTag keyword (if keyword ∈ bareKeywords then "" else argument) 0).toOption =
      (state.blockTag keyword argument line).toOption.map unlined := by
  have hopen := state.toOption_openTag_bare keyword argument line
  have hread : "else_if" ∉ bareKeywords := by decide
  cases hlevels : state.levels with
  | nil =>
      have hunlined : state.unlined.levels = [] := by rw [unlined, hlevels, List.map_nil]
      unfold blockTag
      rw [hlevels, hunlined]
      exact hopen
  | cons level outer =>
      have hunlined : state.unlined.levels =
          { level with line := 0 } :: outer.map fun level => { level with line := 0 } := by
        rw [unlined, hlevels, List.map_cons]
      unfold blockTag
      rw [hlevels, hunlined]
      dsimp only
      split
      · rfl
      · split
        · simp only [toOption_bind, toOption_subject, Option.map_bind, if_neg hread]
          rfl
        · rfl
        · exact hopen

/-- A token is read alike on every line and with every argument that is not asked for. -/
theorem toOption_step_bare (token : Token) :
    (state.unlined.step token.bare).toOption = (state.step token).toOption.map unlined := by
  cases token with
  | text content => rfl
  | insertion lookup => rfl
  | block keyword argument line => exact state.toOption_blockTag_bare keyword argument line

/-- Tokens lead to the same state without their lines and the arguments that are not read. -/
theorem toOption_foldlM_bare (tokens : List Token) :
    ((tokens.map Token.bare).foldlM step state.unlined).toOption =
      (tokens.foldlM step state).toOption.map unlined := by
  induction tokens generalizing state with
  | nil => rfl
  | cons token rest ih =>
      rw [List.map_cons, List.foldlM_cons, List.foldlM_cons, toOption_bind, toOption_bind,
        toOption_step_bare, Option.bind_map, Option.map_bind]
      exact congrArg _ (funext ih)

theorem toOption_finish_unlined : state.unlined.finish.toOption = state.finish.toOption := by
  obtain ⟨levels, body⟩ := state
  cases levels <;> rfl

end ParserState

/-- Tokens are accepted bare if they are accepted at all, and are the same statements. -/
theorem toOption_parseTokens_bare (tokens : List Token) :
    (parseTokens (tokens.map Token.bare)).toOption = (parseTokens tokens).toOption := by
  have hrun := ParserState.toOption_foldlM_bare {} tokens
  rw [parseTokens_eq_run, parseTokens_eq_run, ParserState.run, ParserState.run, toOption_bind,
    toOption_bind]
  change Option.bind
    ((tokens.map Token.bare).foldlM ParserState.step ({} : ParserState).unlined).toOption _ = _
  rw [hrun, Option.bind_map]
  exact congrArg _ (funext fun state => state.toOption_finish_unlined)

/-- Tokens that differ only in their lines and in what is not read stand for the same program. -/
theorem parseTokens_of_bare_eq {tokens others : List Token} {statements : List Statement}
    (hparse : parseTokens tokens = .ok statements)
    (hbare : others.map Token.bare = tokens.map Token.bare) : parseTokens others = .ok statements := by
  have htokens := toOption_parseTokens_bare tokens
  rw [← hbare, toOption_parseTokens_bare, hparse] at htokens
  cases hothers : parseTokens others with
  | ok found =>
      rw [hothers] at htokens
      cases htokens
      rfl
  | error error =>
      rw [hothers] at htokens
      cases htokens

/-! ## Templates -/

/-- A mark has a token on every line if it has one on some line, and the token is the same up to the
line. -/
theorem exists_ofMark {line : Nat} {mark : Mark} {token : Option Token}
    (h : Token.ofMark line mark = .ok token) (other : Nat) :
    ∃ found, Token.ofMark other mark = .ok found ∧
      found.toList.map Token.bare = token.toList.map Token.bare := by
  cases mark with
  | comment =>
      cases h
      exact ⟨none, rfl, rfl⟩
  | block keyword argument =>
      cases h
      exact ⟨_, rfl, rfl⟩
  | lookup path =>
      rw [Token.ofMark] at h ⊢
      split at h
      · cases h
        exact ⟨_, rfl, rfl⟩
      · cases h

/-- Pieces that differ in arguments that are not read have tokens that do. -/
theorem exists_ofPieces_of_sheds {pieces others : List Piece} (h : List.Forall₂ Piece.Sheds pieces others)
    {line : Nat} {tokens : List Token} (htokens : Token.ofPieces line pieces = .ok tokens) (other : Nat) :
    ∃ found, Token.ofPieces other others = .ok found ∧
      found.map Token.bare = tokens.map Token.bare := by
  induction h generalizing line other tokens with
  | nil =>
      cases htokens
      exact ⟨[], rfl, rfl⟩
  | @cons piece new pieces others hpiece hrest ih =>
      cases hpiece with
      | same =>
          cases piece with
          | text content =>
              obtain ⟨later, hlater, heq⟩ := bind_eq_ok.1 htokens
              cases heq
              obtain ⟨found, hfound, hbare⟩ := ih hlater (lineAfter other content)
              refine ⟨_, bind_eq_ok.2 ⟨found, hfound, rfl⟩, ?_⟩
              rw [List.map_cons, List.map_cons, hbare]
          | mark written mark =>
              obtain ⟨token, htoken, hrun⟩ := bind_eq_ok.1 htokens
              obtain ⟨later, hlater, heq⟩ := bind_eq_ok.1 hrun
              cases heq
              obtain ⟨first, hfirst, hsame⟩ := exists_ofMark htoken other
              obtain ⟨found, hfound, hbare⟩ := ih hlater (lineAfter other written)
              refine ⟨_, bind_eq_ok.2 ⟨first, hfirst, bind_eq_ok.2 ⟨found, hfound, rfl⟩⟩, ?_⟩
              rw [List.map_append, List.map_append, hsame, hbare]
      | @argument keyword hkeyword argument written new =>
          obtain ⟨token, htoken, hrun⟩ := bind_eq_ok.1 htokens
          cases htoken
          obtain ⟨later, hlater, heq⟩ := bind_eq_ok.1 hrun
          cases heq
          obtain ⟨found, hfound, hbare⟩ := ih hlater (lineAfter other new)
          refine ⟨_, bind_eq_ok.2 ⟨_, rfl, bind_eq_ok.2 ⟨found, hfound, rfl⟩⟩, ?_⟩
          simp [Token.bare, hkeyword, hbare]

/-- Where every argument is asked for, the tags that ask for nothing have none. -/
theorem ArgumentsRead.argument_eq {source : String} (h : ArgumentsRead (split source.toList))
    {tag : BlockTag} (htag : tag ∈ blockTags source) (hkeyword : tag.keyword ∈ bareKeywords) :
    tag.argument = "" := by
  obtain ⟨written, keyword, argument, hmem, hname, hargument⟩ := exists_mark_of_mem_blockTagsBehind htag
  rw [hname] at hkeyword
  rw [hargument, h written keyword argument hmem hkeyword]

/-- **Arguments**: in a template that is accepted, each tag that opens a block or goes on with a condition
is met in the program at its place, with its argument as the lookup that the block or the branch asks
for. The arguments of the other tags make no difference: without them, on whatever lines the tags then
stand, the template is the same program; and there is always such a template without any of them. -/
theorem parseTemplate_arguments {source : String} {statements : List Statement}
    (h : parseTemplate source = .ok statements) :
    ∃ tokens, Token.ofSource source = .ok tokens ∧
      tokens.map Token.event? = (outlineAll statements).map some ∧
      (∀ others : List Token, others.map Token.bare = tokens.map Token.bare →
        parseTokens others = .ok statements) ∧
      (∀ other : String, Sheds source.toList other.toList → parseTemplate other = .ok statements) ∧
      ∃ other : String, Sheds source.toList other.toList ∧
        ∀ tag ∈ blockTags other, tag.keyword ∈ bareKeywords → tag.argument = "" := by
  obtain ⟨tokens, htokens, hparse⟩ := bind_eq_ok.1 h
  refine ⟨tokens, htokens, outlineAll_of_parseTokens hparse, fun _ => parseTokens_of_bare_eq hparse,
    ?_, ?_⟩
  · intro other hother
    obtain ⟨found, hfound, hbare⟩ := exists_ofPieces_of_sheds hother.forall₂_split htokens 1
    exact bind_eq_ok.2 ⟨found, hfound, parseTokens_of_bare_eq hparse hbare⟩
  · obtain ⟨new, hnew, hread⟩ := exists_sheds source.toList
    have htext : (String.ofList new).toList = new := String.toList_ofList
    rw [← htext] at hnew hread
    exact ⟨String.ofList new, hnew, fun tag htag => hread.argument_eq htag⟩

/-- Without an argument that goes over two lines, a tag behind it stands on another line. -/
theorem parseTemplate_arguments_menu :
    let source := "<% if $Menu %><% loop $Menu.Items %>$Title<% end_loop\nitems %><% end_if %>"
    let other := "<% if $Menu %><% loop $Menu.Items %>$Title<% end_loop %><% end_if %>"
    let menu : Lookup.Step := { name := "Menu" }
    let events : List Event :=
      [.opening .choice { steps := [menu], mode := .object },
        .opening .loop { steps := [menu, { name := "Items" }], mode := .object },
        .insertion { steps := [{ name := "Title" }], mode := .render },
        .closing .loop, .closing .choice]
    (blockTags source).map (fun tag => (tag.argument, tag.line)) =
        [("$Menu", 1), ("$Menu.Items", 1), ("items", 1), ("", 2)] ∧
      (blockTags other).map (fun tag => (tag.argument, tag.line)) =
        [("$Menu", 1), ("$Menu.Items", 1), ("", 1), ("", 1)] ∧
      ∃ tokens statements, Token.ofSource source = .ok tokens ∧
        parseTemplate source = .ok statements ∧ outlineAll statements = events ∧
        tokens.map Token.event? = events.map some ∧
        parseTokens (tokens.map Token.bare) = .ok statements ∧
        parseTemplate other = .ok statements := by
  intro source other menu events
  have hrun : (parseTemplate source).toOption.map outlineAll = some events := by decide +kernel
  obtain ⟨statements, hok, houtline⟩ := exists_ok_of_map_toOption hrun
  obtain ⟨tokens, htokens, hevents, hbare, hsheds, -⟩ := parseTemplate_arguments hok
  rw [houtline] at hevents
  refine ⟨by decide +kernel, by decide +kernel, tokens, statements, htokens, hok, houtline, hevents,
    hbare _ ?_, hsheds _ ?_⟩
  · rw [List.map_map, Token.bare_comp_bare]
  · have hsource : source.toList = "<% if $Menu %>".toList ++ ("<% loop $Menu.Items %>".toList ++
        ("$Title".toList ++ ("<% end_loop\nitems %>".toList ++ ("<% end_if %>".toList ++ [])))) := by
      decide +kernel
    have hother : other.toList = "<% if $Menu %>".toList ++ ("<% loop $Menu.Items %>".toList ++
        ("$Title".toList ++ ('<' :: '%' :: ([' '] ++ ("end_loop".toList ++ ([' '] ++ ['%', '>']))) ++
          ("<% end_if %>".toList ++ [])))) := by
      decide +kernel
    have hblank : ∀ c ∈ [' '], isBlank c = true := List.all_eq_true.1 (by decide)
    rw [hsource, hother]
    apply @Sheds.mark _ _ _ (.block "if".toList "$Menu".toList) (by decide +kernel)
    apply @Sheds.mark _ _ _ (.block "loop".toList "$Menu.Items".toList) (by decide +kernel)
    apply @Sheds.mark _ _ _ (.lookup "Title".toList) (by decide +kernel)
    apply @Sheds.argument _ "items".toList _ _ _ _ _ (by decide +kernel) (by decide) hblank hblank
    exact @Sheds.mark _ _ _ (.block "end_if".toList []) (by decide +kernel) .nil

/-- An argument that looks like a condition is not read either: the second body runs whenever the first
condition fails. -/
theorem parseTemplate_elseCondition :
    let source := "<% if $A %>a<% else if $B %>b<% end_if %>"
    let events : List Event :=
      [.opening .choice { steps := [{ name := "A" }], mode := .object }, .text "a",
        .otherwise, .text "b", .closing .choice]
    { keyword := "else", argument := "if $B", line := 1 } ∈ blockTags source ∧
      ∃ statements, parseTemplate source = .ok statements ∧ outlineAll statements = events := by
  intro source events
  refine ⟨by decide +kernel, ?_⟩
  have hrun : (parseTemplate source).toOption.map outlineAll = some events := by decide +kernel
  exact exists_ok_of_map_toOption hrun

end ComponentTemplates.Template
