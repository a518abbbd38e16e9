/-
Module: ComponentTemplates.Proofs.Template.Balance
Purpose: Which templates are accepted, said without their statements. Only the block tags count: they are
  scanned from left to right, with the blocks that wait for their closing tags. A template is accepted
  if every tag may stand where it stands and no block is left waiting. Otherwise the first tag that
  breaks the rules is to blame, or the innermost of the blocks that are left (`parseTemplate_balance`).
  The proof follows the stack of open blocks, which the descent of the parser comes to.
Main exports: BlockTag, blockTags, Pending, Fits, Scans, Malformed, Misplaced, FirstToBreak,
  parseTemplate_balance
-/
import ComponentTemplates.Proofs.Template.Parser

namespace ComponentTemplates.Template

/-! ## The block tags of a template -/

/-- A block tag, with the line that it begins on. -/
structure BlockTag where
  keyword : String
  argument : String
  line : Nat
deriving DecidableEq, Repr

/-- The block tag that a mark on the given line is, if it is one. -/
def Mark.blockTag? (line : Nat) : Mark → Option BlockTag
  | .block keyword argument =>
      some { keyword := String.ofList keyword, argument := String.ofList argument, line }
  | .comment => none
  | .lookup _ => none

/-- The block tags in pieces of a template, given the text in front of them. The line of a tag is one
more than there are line ends before it. -/
def blockTagsBehind (before : List Char) : List Piece → List BlockTag
  | [] => []
  | .text content :: rest => blockTagsBehind (before ++ content) rest
  | .mark written mark :: rest =>
      (mark.blockTag? (1 + before.count '\n')).toList ++ blockTagsBehind (before ++ written) rest

/-- The block tags of a template, in order. -/
def blockTags (source : String) : List BlockTag :=
  blockTagsBehind [] (split source.toList)

/-- The block tags of pieces are marks among them. -/
theorem exists_mark_of_mem_blockTagsBehind {before : List Char} {pieces : List Piece} {tag : BlockTag}
    (h : tag ∈ blockTagsBehind before pieces) :
    ∃ written keyword argument, .mark written (.block keyword argument) ∈ pieces ∧
      tag.keyword = String.ofList keyword ∧ tag.argument = String.ofList argument := by
  induction pieces generalizing before with
  | nil => cases h
  | cons piece rest ih =>
      cases piece with
      | text content =>
          obtain ⟨written, keyword, argument, hmem, htag⟩ := ih h
          exact ⟨written, keyword, argument, List.mem_cons_of_mem _ hmem, htag⟩
      | mark written mark =>
          rcases List.mem_append.1 h with hmark | hrest
          · cases mark with
            | block keyword argument =>
                obtain rfl := List.mem_singleton.1 hmark
                exact ⟨written, keyword, argument, List.mem_cons_self .., rfl, rfl⟩
            | comment => cases hmark
            | lookup path => cases hmark
          · obtain ⟨found, keyword, argument, hmem, htag⟩ := ih hrest
            exact ⟨found, keyword, argument, List.mem_cons_of_mem _ hmem, htag⟩

/-- The block tag that a token is, if it is one. -/
def Token.blockTag? : Token → Option BlockTag
  | .block keyword argument line => some { keyword, argument, line }
  | .text _ => none
  | .insertion _ => none

/-- Line ends in one text and then in another are counted together. -/
theorem lineAfter_append (line : Nat) (first second : List Char) :
    lineAfter line (first ++ second) = lineAfter (lineAfter line first) second := by
  rw [lineAfter, lineAfter, lineAfter, List.count_append, Nat.add_assoc]

/-- The line behind a text is one more than there are line ends before it. -/
theorem lineAfter_eq (before written : List Char) :
    lineAfter (1 + before.count '\n') written = 1 + (before ++ written).count '\n' := by
  exact (lineAfter_append 1 before written).symm

/-- The token of a mark has the mark's block tag. -/
theorem blockTag?_of_ofMark {line : Nat} {mark : Mark} {token : Option Token}
    (h : Token.ofMark line mark = .ok token) :
    token.toList.filterMap Token.blockTag? = (mark.blockTag? line).toList := by
  cases mark with
  | comment =>
      cases h
      rfl
  | block keyword argument =>
      cases h
      rfl
  | lookup path =>
      unfold Token.ofMark at h
      dsimp only at h
      split at h
      · cases h
        rfl
      · cases h

/-- The tokens have the block tags of the pieces. -/
theorem filterMap_blockTag?_of_ofPieces {pieces : List Piece} {before : List Char}
    {tokens : List Token} (h : Token.ofPieces (1 + before.count '\n') pieces = .ok tokens) :
    tokens.filterMap Token.blockTag? = blockTagsBehind before pieces := by
  induction pieces generalizing before tokens with
  | nil =>
      cases h
      rfl
  | cons piece rest ih =>
      cases piece with
      | text content =>
          obtain ⟨others, hothers, htokens⟩ := bind_eq_ok.1 h
          cases htokens
          rw [lineAfter_eq] at hothers
          rw [blockTagsBehind, ← ih hothers]
          rfl
      | mark written mark =>
          obtain ⟨token, htoken, hrun⟩ := bind_eq_ok.1 h
          obtain ⟨others, hothers, htokens⟩ := bind_eq_ok.1 hrun
          cases htokens
          rw [lineAfter_eq] at hothers
          rw [blockTagsBehind, ← ih hothers, List.filterMap_append, blockTag?_of_ofMark htoken]

/-! ## Where a tag may stand -/

/-- A block that waits for its closing tag: its kind, the line of its opening tag, and whether it is a
choice that has come to its `else`. -/
structure Pending where
  block : Block
  line : Nat
  otherwise : Bool := false
deriving DecidableEq, Repr

/-- The argument says what a block asks for. -/
def IsSubject (argument : String) : Prop :=
  ∃ lookup, Lookup.parse? argument .object = some lookup

/-- Where these blocks are waiting, the innermost first, the tag may stand, and those are waiting behind
it. What is written behind the keyword of an `else` or of a closing tag does not count. -/
inductive Fits : List Pending → BlockTag → List Pending → Prop where
  | opening {outer : List Pending} {argument : String} {line : Nat} (block : Block)
      (hargument : IsSubject argument) :
      Fits outer { keyword := block.keyword, argument, line } ({ block, line } :: outer)
  | nextBranch {outer : List Pending} {opened : Nat} {argument : String} {line : Nat}
      (hargument : IsSubject argument) :
      Fits ({ block := .choice, line := opened } :: outer) { keyword := "else_if", argument, line }
        ({ block := .choice, line := opened } :: outer)
  | otherwise {outer : List Pending} {opened : Nat} {argument : String} {line : Nat} :
      Fits ({ block := .choice, line := opened } :: outer) { keyword := "else", argument, line }
        ({ block := .choice, line := opened, otherwise := true } :: outer)
  | closing {innermost : Pending} {outer : List Pending} {argument : String} {line : Nat} :
      Fits (innermost :: outer) { keyword := innermost.block.endKeyword, argument, line } outer

/-- The tag may not stand there, though it might with another argument. -/
def Malformed (stack : List Pending) (tag : BlockTag) : Prop :=
  (∀ next, ¬Fits stack tag next) ∧ ∃ argument next, Fits stack { tag with argument } next

/-- The tag may not stand there, whatever its argument is. -/
def Misplaced (stack : List Pending) (tag : BlockTag) : Prop :=
  ∀ argument next, ¬Fits stack { tag with argument } next

/-- All tags may stand where they stand, one after another. -/
inductive Scans : List Pending → List BlockTag → List Pending → Prop where
  | nil (stack : List Pending) : Scans stack [] stack
  | cons {stack between next : List Pending} {tag : BlockTag} {rest : List BlockTag}
      (hfits : Fits stack tag between) (hrest : Scans between rest next) :
      Scans stack (tag :: rest) next

/-- The tag is the first one that may not stand where it stands, and this is how it breaks the rules. -/
def FirstToBreak (breaks : List Pending → BlockTag → Prop) (tags : List BlockTag)
    (tag : BlockTag) : Prop :=
  ∃ before after stack, tags = before ++ tag :: after ∧ Scans [] before stack ∧ breaks stack tag

/-- The fault that is to be found in a template with these block tags, and the line to blame. -/
inductive Blames (tags : List BlockTag) : TemplateFault → Nat → Prop where
  | malformed {tag : BlockTag} (htag : FirstToBreak Malformed tags tag) :
      Blames tags (.malformedArgument tag.keyword tag.argument) tag.line
  | misplaced {tag : BlockTag} (htag : FirstToBreak Misplaced tags tag) :
      Blames tags (.unexpectedTag tag.keyword) tag.line
  | unclosed {innermost : Pending} {outer : List Pending}
      (hscans : Scans [] tags (innermost :: outer)) :
      Blames tags (.unclosed innermost.block) innermost.line

/-- A tag may stand where it stands, or its argument or its place is at fault. -/
theorem fits_or_breaks (stack : List Pending) (tag : BlockTag) :
    (∃ next, Fits stack tag next) ∨ Malformed stack tag ∨ Misplaced stack tag := by
  by_cases hfits : ∃ next, Fits stack tag next
  · exact .inl hfits
  · by_cases hargument : ∃ argument next, Fits stack { tag with argument } next
    · exact .inr (.inl ⟨fun next hnext => hfits ⟨next, hnext⟩, hargument⟩)
    · exact .inr (.inr fun argument next hnext => hargument ⟨argument, next, hnext⟩)

/-- Either all tags may stand where they stand, or there is a first one that may not. -/
theorem scans_or_breaks (stack : List Pending) (tags : List BlockTag) :
    (∃ next, Scans stack tags next) ∨
      ∃ before tag after between, tags = before ++ tag :: after ∧ Scans stack before between ∧
        (Malformed between tag ∨ Misplaced between tag) := by
  induction tags generalizing stack with
  | nil => exact .inl ⟨stack, .nil stack⟩
  | cons tag rest ih =>
      rcases fits_or_breaks stack tag with ⟨next, hfits⟩ | hbreaks
      · rcases ih next with ⟨last, hrest⟩ | ⟨before, other, after, between, rfl, hscans, hbreaks⟩
        · exact .inl ⟨last, .cons hfits hrest⟩
        · exact .inr ⟨tag :: before, other, after, between, rfl, .cons hfits hscans, hbreaks⟩
      · exact .inr ⟨[], tag, rest, stack, rfl, .nil stack, hbreaks⟩

/-! ## What the parser does with a tag -/

/-- What is known of an open block from its tags. -/
def Level.pending (level : Level) : Pending where
  block := level.openBlock.block
  line := level.line
  otherwise := match level.openBlock with
    | .otherwise _ => true
    | _ => false

/-- The blocks that are waiting, the innermost first. -/
def ParserState.pending (state : ParserState) : List Pending :=
  state.levels.map Level.pending

/-- A choice that waits for further branches is one whose last branch is being read. -/
theorem Level.branch_of_pending {level : Level} {line : Nat}
    (h : level.pending = { block := .choice, line }) :
    ∃ finished condition, level.openBlock = .branch finished condition := by
  obtain ⟨openBlock, opened, before⟩ := level
  cases openBlock with
  | branch finished condition => exact ⟨finished, condition, rfl⟩
  | otherwise branches => simp [pending] at h
  | loop subject => simp [pending, OpenBlock.block] at h
  | within scope => simp [pending, OpenBlock.block] at h

namespace ParserState

variable {state : ParserState} {tag : BlockTag}

/-- An argument that is a subject is accepted. -/
theorem subject_of_isSubject {argument : String} (h : IsSubject argument) (keyword : String)
    (line : Nat) : ∃ lookup, subject keyword argument line = .ok lookup := by
  obtain ⟨lookup, hlookup⟩ := h
  refine ⟨lookup, ?_⟩
  rw [subject, hlookup]

/-- Any other argument is refused at the line of its tag. -/
theorem subject_of_not {keyword argument : String} {line : Nat} (h : ¬IsSubject argument) :
    subject keyword argument line =
      .error (.template (.malformedArgument keyword argument) line) := by
  unfold subject
  cases hparse : Lookup.parse? argument .object with
  | none => rfl
  | some lookup => exact absurd ⟨lookup, hparse⟩ h

/-- **Step**: a tag that may stand where it stands is accepted, and the blocks that wait are those that
the rules say. -/
theorem blockTag_of_fits {next : List Pending} (h : Fits state.pending tag next) :
    ∃ after, state.blockTag tag.keyword tag.argument tag.line = .ok after ∧
      after.pending = next := by
  generalize hstack : state.pending = stack at h
  cases h with
  | @opening outer argument line block hargument =>
      obtain ⟨lookup, hlookup⟩ := subject_of_isSubject hargument block.keyword line
      refine ⟨state.enter (.opened block lookup) line, ?_, ?_⟩
      · rw [blockTag_opening, hlookup]
        rfl
      · rw [← hstack]
        cases block <;> rfl
  | @nextBranch outer opened argument line hargument =>
      obtain ⟨level, others, hlevels, hlevel, rfl⟩ := List.map_eq_cons_iff.1 hstack
      obtain ⟨finished, condition, hopen⟩ := Level.branch_of_pending hlevel
      obtain ⟨lookup, hlookup⟩ := subject_of_isSubject hargument "else_if" line
      refine ⟨state.turn level others
        (.branch (⟨condition, state.body.reverse⟩ :: finished) lookup), ?_, ?_⟩
      · rw [blockTag_nextBranch hlevels hopen, hlookup]
        rfl
      · rw [← hlevel]
        simp [turn, pending, Level.pending, hopen, OpenBlock.block]
  | @otherwise outer opened argument line =>
      obtain ⟨level, others, hlevels, hlevel, rfl⟩ := List.map_eq_cons_iff.1 hstack
      obtain ⟨finished, condition, hopen⟩ := Level.branch_of_pending hlevel
      refine ⟨_, blockTag_otherwise hlevels hopen argument, ?_⟩
      have hline : level.line = opened := congrArg Pending.line hlevel
      simp [turn, pending, Level.pending, OpenBlock.block, hline]
  | @closing innermost outer argument line =>
      obtain ⟨level, others, hlevels, rfl, rfl⟩ := List.map_eq_cons_iff.1 hstack
      exact ⟨_, blockTag_close hlevels argument, rfl⟩

/-- A tag whose argument is at fault is refused with that fault. -/
theorem blockTag_of_malformed (h : Malformed state.pending tag) :
    state.blockTag tag.keyword tag.argument tag.line =
      .error (.template (.malformedArgument tag.keyword tag.argument) tag.line) := by
  obtain ⟨hbreaks, other, next, hfits⟩ := h
  obtain ⟨keyword, argument, line⟩ := tag
  dsimp only at hfits hbreaks ⊢
  generalize hstack : state.pending = stack at hfits hbreaks
  cases hfits with
  | opening block _ =>
      rw [blockTag_opening, subject_of_not fun hargument => hbreaks _ (.opening block hargument)]
      rfl
  | nextBranch _ =>
      obtain ⟨level, others, hlevels, hlevel, rfl⟩ := List.map_eq_cons_iff.1 hstack
      obtain ⟨finished, condition, hopen⟩ := Level.branch_of_pending hlevel
      rw [blockTag_nextBranch hlevels hopen,
        subject_of_not fun hargument => hbreaks _ (.nextBranch hargument)]
      rfl
  | otherwise => exact absurd .otherwise (hbreaks _)
  | closing => exact absurd .closing (hbreaks _)

/-- There are arguments that say what a block asks for. -/
theorem isSubject_name : IsSubject "name" := by
  have hsome : (Lookup.parse? "name" .object).isSome = true := by decide +kernel
  exact Option.isSome_iff_exists.1 hsome

/-- A tag that opens no block is out of place where no open block takes it. -/
theorem openTag_of_not_opening {keyword : String} (h : ∀ block : Block, keyword ≠ block.keyword)
    (argument : String) (line : Nat) :
    state.openTag keyword argument line = .error (.template (.unexpectedTag keyword) line) := by
  unfold openTag
  split
  · exact absurd rfl (h .choice)
  · exact absurd rfl (h .loop)
  · exact absurd rfl (h .within)
  · rfl

/-- A tag whose place is at fault is refused with that fault. -/
theorem blockTag_of_misplaced (h : Misplaced state.pending tag) :
    state.blockTag tag.keyword tag.argument tag.line =
      .error (.template (.unexpectedTag tag.keyword) tag.line) := by
  obtain ⟨keyword, argument, line⟩ := tag
  have hopening : ∀ block : Block, keyword ≠ block.keyword := by
    rintro block rfl
    exact h _ _ (.opening block isSubject_name)
  -- Whatever the innermost block is, the tag is read as one that opens a block, and it is none.
  have hopen : state.openTag keyword argument line =
      .error (.template (.unexpectedTag keyword) line) :=
    openTag_of_not_opening hopening argument line
  unfold blockTag
  dsimp only
  split
  · exact hopen
  · rename_i level outer hlevels
    have hpending : state.pending = level.pending :: outer.map Level.pending := by
      rw [pending, hlevels]
      rfl
    rw [hpending] at h
    split
    · rename_i hclose
      subst hclose
      have hfits : Fits (level.pending :: outer.map Level.pending)
          { keyword := level.pending.block.endKeyword, argument, line }
          (outer.map Level.pending) := .closing
      exact absurd hfits (h argument _)
    · split
      · rename_i finished condition hbranch _
        have hlevel : level.pending = { block := .choice, line := level.line } := by
          simp [Level.pending, hbranch, OpenBlock.block]
        rw [hlevel] at h
        exact absurd (.nextBranch isSubject_name) (h _ _)
      · rename_i finished condition hbranch _
        have hlevel : level.pending = { block := .choice, line := level.line } := by
          simp [Level.pending, hbranch, OpenBlock.block]
        rw [hlevel] at h
        exact absurd .otherwise (h argument _)
      · exact hopen

/-! ## What the parser does with a template -/

/-- Only tags change which blocks are waiting. -/
theorem foldlM_of_scans {tokens : List Token} {next : List Pending}
    (h : Scans state.pending (tokens.filterMap Token.blockTag?) next) :
    ∃ after, tokens.foldlM step state = .ok after ∧ after.pending = next := by
  induction tokens generalizing state with
  | nil =>
      cases h
      exact ⟨state, rfl, rfl⟩
  | cons token rest ih =>
      have hadd : ∀ statement, (state.add statement).pending = state.pending := fun _ => rfl
      rw [List.foldlM_cons]
      cases token with
      | text content =>
          rw [← hadd (.append .page (.literal content))] at h
          exact ih h
      | insertion lookup =>
          rw [← hadd (.append .page (.value lookup))] at h
          exact ih h
      | block keyword argument line =>
          change Scans state.pending
            ({ keyword, argument, line } :: rest.filterMap Token.blockTag?) next at h
          cases h with
          | cons hfits hrest =>
              obtain ⟨between, hstep, rfl⟩ := blockTag_of_fits hfits
              obtain ⟨after, hrun, hafter⟩ := ih hrest
              refine ⟨after, ?_, hafter⟩
              change (state.blockTag keyword argument line >>= _) = _
              rw [hstep, ok_bind, hrun]

/-- Behind tags that may stand where they stand, the first other tag decides the error. -/
theorem foldlM_of_break {tokens : List Token} {before after : List BlockTag} {stack : List Pending}
    {error : CompileError} (htags : tokens.filterMap Token.blockTag? = before ++ tag :: after)
    (hbefore : Scans state.pending before stack)
    (hbreaks : ∀ between : ParserState, between.pending = stack →
      between.blockTag tag.keyword tag.argument tag.line = .error error) :
    tokens.foldlM step state = .error error := by
  obtain ⟨front, back, rfl, hfront, hback⟩ := List.filterMap_eq_append_iff.1 htags
  obtain ⟨skipped, token, rest, rfl, hskipped, htoken, _⟩ := List.filterMap_eq_cons_iff.1 hback
  -- The tokens between the tags before and the one that breaks the rules are no tags.
  have hnone : skipped.filterMap Token.blockTag? = [] := List.filterMap_eq_nil_iff.2 hskipped
  have hreached : Scans state.pending ((front ++ skipped).filterMap Token.blockTag?) stack := by
    rwa [List.filterMap_append, hfront, hnone, List.append_nil]
  obtain ⟨between, hrun, hstack⟩ := foldlM_of_scans hreached
  have hstep : between.step token = .error error := by
    cases token with
    | text content => cases htoken
    | insertion lookup => cases htoken
    | block keyword argument line =>
        cases htoken
        exact hbreaks between hstack
  rw [← List.append_assoc, List.foldlM_append, hrun, ok_bind, List.foldlM_cons, hstep, error_bind]

end ParserState

section Source

variable {source : String} {tokens : List Token}

/-- Where every tag may stand, the last state of the parser has the blocks that are left waiting. -/
theorem parseTemplate_of_scans (htokens : Token.ofSource source = .ok tokens) {next : List Pending}
    (h : Scans [] (blockTags source) next) :
    ∃ state : ParserState, parseTemplate source = state.finish ∧ state.pending = next := by
  have htags : tokens.filterMap Token.blockTag? = blockTags source :=
    filterMap_blockTag?_of_ofPieces htokens
  have hscans : Scans ({} : ParserState).pending (tokens.filterMap Token.blockTag?) next := by
    rwa [htags]
  obtain ⟨state, hrun, hpending⟩ := ParserState.foldlM_of_scans hscans
  refine ⟨state, ?_, hpending⟩
  rw [parseTemplate_eq_run, htokens, ok_bind, ParserState.run, hrun, ok_bind]

/-- A template whose tags balance is accepted. -/
theorem parseTemplate_of_balanced (htokens : Token.ofSource source = .ok tokens)
    (h : Scans [] (blockTags source) []) : ∃ statements, parseTemplate source = .ok statements := by
  obtain ⟨⟨levels, body⟩, hparse, hpending⟩ := parseTemplate_of_scans htokens h
  obtain rfl : levels = [] := List.map_eq_nil_iff.1 hpending
  exact ⟨_, hparse⟩

/-- A template that leaves a block open is refused, at the line of the innermost one. -/
theorem parseTemplate_of_unclosed (htokens : Token.ofSource source = .ok tokens)
    {innermost : Pending} {outer : List Pending}
    (h : Scans [] (blockTags source) (innermost :: outer)) :
    parseTemplate source = .error (.template (.unclosed innermost.block) innermost.line) := by
  obtain ⟨⟨levels, body⟩, hparse, hpending⟩ := parseTemplate_of_scans htokens h
  obtain ⟨level, others, rfl, rfl, -⟩ := List.map_eq_cons_iff.1 hpending
  exact hparse

/-- A template is refused with the fault of the first tag that may not stand where it stands. -/
theorem parseTemplate_of_break (htokens : Token.ofSource source = .ok tokens)
    {breaks : List Pending → BlockTag → Prop} {tag : BlockTag}
    (h : FirstToBreak breaks (blockTags source) tag) {error : CompileError}
    (hbreaks : ∀ state : ParserState, breaks state.pending tag →
      state.blockTag tag.keyword tag.argument tag.line = .error error) :
    parseTemplate source = .error error := by
  obtain ⟨before, after, stack, hsplit, hbefore, htag⟩ := h
  have htags : tokens.filterMap Token.blockTag? = blockTags source :=
    filterMap_blockTag?_of_ofPieces htokens
  rw [← htags] at hsplit
  have hrun : tokens.foldlM ParserState.step {} = .error error := by
    have hstart : Scans ({} : ParserState).pending before stack := hbefore
    apply ParserState.foldlM_of_break hsplit hstart
    rintro between rfl
    exact hbreaks between htag
  rw [parseTemplate_eq_run, htokens, ok_bind, ParserState.run, hrun, error_bind]

/-- A template is refused with the fault that its tags show. -/
theorem parseTemplate_of_blames (htokens : Token.ofSource source = .ok tokens)
    {fault : TemplateFault} {line : Nat} (h : Blames (blockTags source) fault line) :
    parseTemplate source = .error (.template fault line) := by
  cases h with
  | malformed htag =>
      exact parseTemplate_of_break htokens htag fun _ => ParserState.blockTag_of_malformed
  | misplaced htag =>
      exact parseTemplate_of_break htokens htag fun _ => ParserState.blockTag_of_misplaced
  | unclosed hscans => exact parseTemplate_of_unclosed htokens hscans

end Source

/-- Tags balance or show a fault. -/
theorem balanced_or_blames (tags : List BlockTag) :
    Scans [] tags [] ∨ ∃ fault line, Blames tags fault line := by
  rcases scans_or_breaks [] tags with
    ⟨next, hscans⟩ | ⟨before, tag, after, stack, hsplit, hbefore, hbreaks⟩
  · cases next with
    | nil => exact .inl hscans
    | cons innermost outer => exact .inr ⟨_, _, .unclosed hscans⟩
  · rcases hbreaks with hmalformed | hmisplaced
    · exact .inr ⟨_, _, .malformed ⟨before, after, stack, hsplit, hbefore, hmalformed⟩⟩
    · exact .inr ⟨_, _, .misplaced ⟨before, after, stack, hsplit, hbefore, hmisplaced⟩⟩

section Verdict

variable {source : String} {tokens : List Token} (htokens : Token.ofSource source = .ok tokens)

include htokens

/-- Exactly the templates whose tags balance are accepted. -/
theorem parseTemplate_eq_ok_iff :
    (∃ statements, parseTemplate source = .ok statements) ↔ Scans [] (blockTags source) [] := by
  refine ⟨?_, parseTemplate_of_balanced htokens⟩
  rintro ⟨statements, hok⟩
  rcases balanced_or_blames (blockTags source) with hbalanced | ⟨fault, line, hblames⟩
  · exact hbalanced
  · exact absurd ((parseTemplate_of_blames htokens hblames).symm.trans hok) nofun

/-- A template is refused with exactly the fault that its tags show. -/
theorem parseTemplate_eq_error_iff {error : CompileError} :
    parseTemplate source = .error error ↔
      ∃ fault line, error = .template fault line ∧ Blames (blockTags source) fault line := by
  constructor
  · intro herror
    rcases balanced_or_blames (blockTags source) with hbalanced | ⟨fault, line, hblames⟩
    · obtain ⟨statements, hok⟩ := parseTemplate_of_balanced htokens hbalanced
      exact absurd (hok.symm.trans herror) nofun
    · cases (parseTemplate_of_blames htokens hblames).symm.trans herror
      exact ⟨fault, line, rfl, hblames⟩
  · rintro ⟨fault, line, rfl, hblames⟩
    exact parseTemplate_of_blames htokens hblames

end Verdict

/-- **Balance**: a template whose variables are all lookups is accepted exactly if its block tags balance.
If they do not, the error is the fault that the tags show: the first tag that breaks the rules, or if
there is none, the innermost block that is left open. -/
theorem parseTemplate_balance {source : String} {tokens : List Token}
    (htokens : Token.ofSource source = .ok tokens) :
    ((∃ statements, parseTemplate source = .ok statements) ↔ Scans [] (blockTags source) []) ∧
      ∀ error, parseTemplate source = .error error ↔
        ∃ fault line, error = .template fault line ∧ Blames (blockTags source) fault line :=
  ⟨parseTemplate_eq_ok_iff htokens, fun _ => parseTemplate_eq_error_iff htokens⟩

/-- In a block that is no choice, no else part may stand. -/
theorem Fits.keyword_ne_else {block : Block} {opened : Nat} {outer next : List Pending}
    {tag : BlockTag} (h : Fits ({ block, line := opened } :: outer) tag next)
    (hblock : block ≠ .choice) : tag.keyword ≠ "else" := by
  have hopening : ∀ other : Block, other.keyword ≠ "else" := by
    intro other
    cases other <;> decide
  have hclosing : ∀ other : Block, other.endKeyword ≠ "else" := by
    intro other
    cases other <;> decide
  cases h with
  | opening other _ => exact hopening other
  | nextBranch _ => exact (by decide : "else_if" ≠ "else")
  | otherwise => exact absurd rfl hblock
  | closing => exact hclosing block

/-- An else part inside a loop is out of place, though the choice around the loop might take one. -/
theorem parseTemplate_balance_strayElse :
    let source := "<% if $Open %>\n<% loop $Rows %>\n<% else %>"
    (∃ tokens, Token.ofSource source = .ok tokens) ∧
      blockTags source = [⟨"if", "$Open", 1⟩, ⟨"loop", "$Rows", 2⟩, ⟨"else", "", 3⟩] ∧
      parseTemplate source = .error (.template (.unexpectedTag "else") 3) := by
  intro source
  have hsome : (Token.ofSource source).toOption.isSome = true := by decide +kernel
  obtain ⟨tokens, htokens⟩ := exists_ok_of_isSome hsome
  have htags : blockTags source = [⟨"if", "$Open", 1⟩, ⟨"loop", "$Rows", 2⟩, ⟨"else", "", 3⟩] := by
    decide +kernel
  have hif : IsSubject "$Open" :=
    Option.isSome_iff_exists.1 (by decide +kernel : (Lookup.parse? "$Open" .object).isSome = true)
  have hloop : IsSubject "$Rows" :=
    Option.isSome_iff_exists.1 (by decide +kernel : (Lookup.parse? "$Rows" .object).isSome = true)
  have hbefore : Scans [] [⟨"if", "$Open", 1⟩, ⟨"loop", "$Rows", 2⟩]
      [{ block := .loop, line := 2 }, { block := .choice, line := 1 }] :=
    .cons (.opening .choice hif) (.cons (.opening .loop hloop) (.nil _))
  have hmisplaced : Misplaced [{ block := .loop, line := 2 }, { block := .choice, line := 1 }]
      ⟨"else", "", 3⟩ := fun argument next hfits => hfits.keyword_ne_else (by decide) rfl
  refine ⟨⟨tokens, htokens⟩, htags, ?_⟩
  exact ((parseTemplate_balance htokens).2 _).2
    ⟨_, _, rfl, .misplaced ⟨_, [], _, htags, hbefore, hmisplaced⟩⟩

end ComponentTemplates.Template
