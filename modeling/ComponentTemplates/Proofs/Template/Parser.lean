/-
Module: ComponentTemplates.Proofs.Template.Parser
Purpose: What a template parser can do with a block tag, said once, and what follows for the statements of
  a template: a property of the writes to the page that blocks take over from their bodies holds of
  all of them (`forall_of_parseTokens`). So the literals of a template are the text between its
  marks, and nothing else is (`literalsAll_of_parseTemplate`).
Main exports: ParserState.openTag_cases, ParserState.blockTag_cases, KeptByBlocks,
  forall_of_parseTokens, literalsAll_of_parseTemplate
-/
import ComponentTemplates.Proofs.Statement.Literals
import ComponentTemplates.Proofs.Template.OpenBlocks

namespace ComponentTemplates.Template

/-- The text that a piece is, if it is no mark. -/
def Piece.text? : Piece → Option (List Char)
  | .text content => some content
  | .mark _ _ => none

/-- The stretches of a template that are text. -/
def textPieces (source : String) : List (List Char) :=
  (split source.toList).filterMap Piece.text?

/-- The block that a tag opens, given what the tag asks for. -/
def OpenBlock.opened : Block → Lookup → OpenBlock
  | .choice, condition => .branch [] condition
  | .loop, subject => .loop subject
  | .within, scope => .within scope

namespace ParserState

variable {state next : ParserState} {keyword argument : String} {line : Nat}

/-- The words that open a block mean the same in any block. -/
theorem blockTag_opening (block : Block) (argument : String) :
    state.blockTag block.keyword argument line = do
      return state.enter (.opened block (← subject block.keyword argument line)) line := by
  have hopen : state.openTag block.keyword argument line = do
      return state.enter (.opened block (← subject block.keyword argument line)) line := by
    cases block <;> rfl
  rw [← hopen]
  unfold blockTag
  split
  · rfl
  · rename_i level outer hlevels
    have hend : block.keyword ≠ level.openBlock.block.endKeyword := by
      cases block <;> cases level.openBlock.block <;> decide
    rw [if_neg hend]
    cases block <;> cases level.openBlock <;> rfl

/-- A tag that opens a block has the keyword of the block and a lookup as argument. -/
theorem openTag_cases (h : state.openTag keyword argument line = .ok next) :
    ∃ block lookup, keyword = Block.keyword block ∧ subject keyword argument line = .ok lookup ∧
      next = state.enter (.opened block lookup) line := by
  unfold openTag at h
  split at h
  · obtain ⟨condition, hsubject, hnext⟩ := bind_eq_ok.1 h
    exact ⟨.choice, condition, rfl, hsubject, (Except.ok.inj hnext).symm⟩
  · obtain ⟨subject, hsubject, hnext⟩ := bind_eq_ok.1 h
    exact ⟨.loop, subject, rfl, hsubject, (Except.ok.inj hnext).symm⟩
  · obtain ⟨scope, hsubject, hnext⟩ := bind_eq_ok.1 h
    exact ⟨.within, scope, rfl, hsubject, (Except.ok.inj hnext).symm⟩
  · cases h

/-- A block tag opens a block, closes the innermost one, or goes on to the next body of a choice. -/
theorem blockTag_cases (h : state.blockTag keyword argument line = .ok next) :
    (∃ block lookup, keyword = Block.keyword block ∧ subject keyword argument line = .ok lookup ∧
      next = state.enter (.opened block lookup) line) ∨
      ∃ level outer, state.levels = level :: outer ∧
        (keyword = level.openBlock.block.endKeyword ∧ next = state.leave level outer ∨
          ∃ finished condition, level.openBlock = .branch finished condition ∧
            let complete := ⟨condition, state.body.reverse⟩ :: finished
            (∃ following, keyword = "else_if" ∧ subject keyword argument line = .ok following ∧
              next = state.turn level outer (.branch complete following)) ∨
              keyword = "else" ∧ next = state.turn level outer (.otherwise complete.reverse)) := by
  unfold blockTag at h
  split at h
  · exact .inl (openTag_cases h)
  · rename_i level outer hlevels
    split at h
    · rename_i hclose
      exact .inr ⟨level, outer, hlevels, .inl ⟨hclose, (Except.ok.inj h).symm⟩⟩
    · split at h
      · rename_i finished condition hblock _
        obtain ⟨following, hsubject, hnext⟩ := bind_eq_ok.1 h
        exact .inr ⟨level, outer, hlevels, .inr ⟨finished, condition, hblock,
          .inl ⟨following, rfl, hsubject, (Except.ok.inj hnext).symm⟩⟩⟩
      · rename_i finished condition hblock _
        exact .inr ⟨level, outer, hlevels,
          .inr ⟨finished, condition, hblock, .inr ⟨rfl, (Except.ok.inj h).symm⟩⟩⟩
      · exact .inl (openTag_cases h)

end ParserState

section Statements

variable {holds : Statement → Prop}

/-- A block has the property if the statements of its bodies do. -/
structure KeptByBlocks (holds : Statement → Prop) : Prop where
  choose {branches : List Branch} {otherwise : Option (List Statement)} :
    (∀ branch ∈ branches, ∀ statement ∈ branch.body, holds statement) →
      (∀ body ∈ otherwise, ∀ statement ∈ body, holds statement) →
        holds (.choose branches otherwise)
  loop (subject : Lookup) {body : List Statement} :
    (∀ statement ∈ body, holds statement) → holds (.loop subject body)
  within (scope : Lookup) {body : List Statement} :
    (∀ statement ∈ body, holds statement) → holds (.within scope body)

/-- The statements in the bodies that are complete have the property. -/
def OpenBlock.Keeps (holds : Statement → Prop) : OpenBlock → Prop
  | .branch finished _ => ∀ branch ∈ finished, ∀ statement ∈ branch.body, holds statement
  | .otherwise branches => ∀ branch ∈ branches, ∀ statement ∈ branch.body, holds statement
  | .loop _ => True
  | .within _ => True

/-- All statements that have been read have the property. -/
structure ParserState.Keeps (holds : Statement → Prop) (state : ParserState) : Prop where
  body : ∀ statement ∈ state.body, holds statement
  levels : ∀ level ∈ state.levels,
    level.openBlock.Keeps holds ∧ ∀ statement ∈ level.before, holds statement

/-- No body of a block that was just opened is complete. -/
theorem OpenBlock.keeps_opened (block : Block) (lookup : Lookup) :
    (OpenBlock.opened block lookup).Keeps holds := by
  cases block with
  | choice => exact nofun
  | loop => trivial
  | within => trivial

/-- A block that is closed has the property if all its bodies do. -/
theorem OpenBlock.Keeps.close (hblocks : KeptByBlocks holds) {openBlock : OpenBlock}
    (h : openBlock.Keeps holds) {body : List Statement}
    (hbody : ∀ statement ∈ body, holds statement) : holds (openBlock.close body) := by
  cases openBlock with
  | branch finished condition =>
      apply hblocks.choose
      · intro branch hbranch
        rcases List.mem_cons.1 (List.mem_reverse.1 hbranch) with rfl | hbranch
        · exact hbody
        · exact h branch hbranch
      · exact nofun
  | otherwise branches =>
      apply hblocks.choose h
      intro last hlast
      cases hlast
      exact hbody
  | loop subject => exact hblocks.loop subject hbody
  | within scope => exact hblocks.within scope hbody

namespace ParserState.Keeps

variable {state next : ParserState}

theorem add (h : state.Keeps holds) {statement : Statement} (hstatement : holds statement) :
    (state.add statement).Keeps holds := by
  refine ⟨?_, h.levels⟩
  intro other hother
  rcases List.mem_cons.1 hother with rfl | hother
  · exact hstatement
  · exact h.body other hother

/-- A block tag keeps the property. -/
theorem blockTag (hblocks : KeptByBlocks holds) (h : state.Keeps holds)
    {keyword argument : String} {line : Nat}
    (hnext : state.blockTag keyword argument line = .ok next) : next.Keeps holds := by
  rcases blockTag_cases hnext with
    ⟨block, lookup, -, -, rfl⟩ | ⟨level, outer, hlevels, hcase⟩
  · refine ⟨nofun, ?_⟩
    intro level hlevel
    rcases List.mem_cons.1 hlevel with rfl | hlevel
    · exact ⟨OpenBlock.keeps_opened block lookup, h.body⟩
    · exact h.levels level hlevel
  · obtain ⟨hblock, hbefore⟩ := h.levels level (by rw [hlevels]; exact List.mem_cons_self ..)
    have houter : ∀ other ∈ outer,
        other.openBlock.Keeps holds ∧ ∀ statement ∈ other.before, holds statement := by
      intro other hother
      exact h.levels other (by rw [hlevels]; exact List.mem_cons_of_mem _ hother)
    have hbody : ∀ statement ∈ state.body.reverse, holds statement := by
      intro statement hmem
      exact h.body statement (List.mem_reverse.1 hmem)
    rcases hcase with ⟨-, rfl⟩ | ⟨finished, condition, hopen, hcase⟩
    · refine ⟨?_, houter⟩
      intro statement hmem
      rcases List.mem_cons.1 hmem with rfl | hmem
      · exact hblock.close hblocks hbody
      · exact hbefore statement hmem
    · rw [hopen] at hblock
      have hcomplete : ∀ branch ∈ (⟨condition, state.body.reverse⟩ :: finished : List Branch),
          ∀ statement ∈ branch.body, holds statement := by
        intro branch hbranch
        rcases List.mem_cons.1 hbranch with rfl | hbranch
        · exact hbody
        · exact hblock branch hbranch
      -- the level keeps its place and its surroundings, whichever body comes next
      have hturn : ∀ following : OpenBlock, following.Keeps holds →
          (state.turn level outer following).Keeps holds := by
        intro following hfollowing
        refine ⟨nofun, ?_⟩
        intro other hother
        rcases List.mem_cons.1 hother with rfl | hother
        · exact ⟨hfollowing, hbefore⟩
        · exact houter other hother
      rcases hcase with ⟨following, -, -, rfl⟩ | ⟨-, rfl⟩
      · exact hturn _ hcomplete
      · apply hturn
        intro branch hbranch
        exact hcomplete branch (List.mem_reverse.1 hbranch)

theorem step (hblocks : KeptByBlocks holds) (h : state.Keeps holds) {token : Token}
    (htext : ∀ content, token = .text content → holds (.append .page (.literal content)))
    (hinsertion : ∀ lookup, holds (.append .page (.value lookup)))
    (hnext : state.step token = .ok next) : next.Keeps holds := by
  cases token with
  | text content =>
      cases hnext
      exact h.add (htext content rfl)
  | insertion lookup =>
      cases hnext
      exact h.add (hinsertion lookup)
  | block keyword argument line => exact h.blockTag hblocks hnext

/-- Tokens keep the property, if what they write has it. -/
theorem foldlM_step (hblocks : KeptByBlocks holds) (h : state.Keeps holds) {tokens : List Token}
    (htext : ∀ content, .text content ∈ tokens → holds (.append .page (.literal content)))
    (hinsertion : ∀ lookup, holds (.append .page (.value lookup)))
    (hrun : tokens.foldlM ParserState.step state = .ok next) : next.Keeps holds := by
  induction tokens generalizing state with
  | nil =>
      cases hrun
      exact h
  | cons token rest ih =>
      rw [List.foldlM_cons] at hrun
      obtain ⟨middle, hstep, hrest⟩ := bind_eq_ok.1 hrun
      refine ih (h.step hblocks ?_ hinsertion hstep) ?_ hrest
      · rintro content rfl
        exact htext content (List.mem_cons_self ..)
      · intro content hmem
        exact htext content (List.mem_cons_of_mem _ hmem)

end ParserState.Keeps

/-- A template consists of writes to the page and of blocks: a property that these writes have, and that
blocks take over from their bodies, holds of every statement of a template. -/
theorem forall_of_parseTokens (hblocks : KeptByBlocks holds) {tokens : List Token}
    (htext : ∀ content, .text content ∈ tokens → holds (.append .page (.literal content)))
    (hinsertion : ∀ lookup, holds (.append .page (.value lookup))) {statements : List Statement}
    (h : parseTokens tokens = .ok statements) : ∀ statement ∈ statements, holds statement := by
  rw [parseTokens_eq_run] at h
  obtain ⟨state, hrun, hfinish⟩ := bind_eq_ok.1 h
  have hstart : ParserState.Keeps holds {} := ⟨nofun, nofun⟩
  have hstate := hstart.foldlM_step hblocks htext hinsertion hrun
  unfold ParserState.finish at hfinish
  split at hfinish
  · cases hfinish
    intro statement hmem
    exact hstate.body statement (List.mem_reverse.1 hmem)
  · cases hfinish

end Statements

section Literals

variable {holds : String → Prop}

theorem literals_keptByBlocks : KeptByBlocks (Statement.Literals holds) where
  choose {branches otherwise} hbranches hotherwise := by
    have hall : Statement.LiteralsBranches holds branches := by
      rw [Statement.literalsBranches_iff]
      intro branch hbranch
      exact Statement.literalsAll_iff.2 (hbranches branch hbranch)
    cases otherwise with
    | none => exact hall
    | some body => exact ⟨hall, Statement.literalsAll_iff.2 (hotherwise body rfl)⟩
  loop _ _ hbody := Statement.literalsAll_iff.2 hbody
  within _ _ hbody := Statement.literalsAll_iff.2 hbody

/-- The literals of a program are texts among the tokens. -/
theorem literalsAll_of_parseTokens {tokens : List Token} {statements : List Statement}
    (htokens : ∀ content, .text content ∈ tokens → holds content)
    (h : parseTokens tokens = .ok statements) : Statement.LiteralsAll holds statements :=
  Statement.literalsAll_iff.2
    (forall_of_parseTokens literals_keptByBlocks htokens (fun _ => trivial) h)

theorem ofMark_ne_text {line : Nat} {mark : Mark} {token : Option Token}
    (h : Token.ofMark line mark = .ok token) (content : String) : token ≠ some (.text content) := by
  cases mark with
  | comment =>
      cases h
      exact nofun
  | block keyword argument =>
      cases h
      exact nofun
  | lookup path =>
      unfold Token.ofMark at h
      dsimp only at h
      split at h
      · cases h
        exact nofun
      · cases h

theorem mem_of_ofPieces {pieces : List Piece} {line : Nat} {tokens : List Token}
    (h : Token.ofPieces line pieces = .ok tokens) {content : String}
    (hmem : .text content ∈ tokens) : .text content.toList ∈ pieces := by
  induction pieces generalizing line tokens with
  | nil =>
      cases h
      cases hmem
  | cons piece rest ih =>
      cases piece with
      | text written =>
          obtain ⟨others, hothers, htokens⟩ := bind_eq_ok.1 h
          cases htokens
          rcases List.mem_cons.1 hmem with heq | hmem
          · injection heq with hcontent
            rw [hcontent, String.toList_ofList]
            exact List.mem_cons_self ..
          · exact List.mem_cons_of_mem _ (ih hothers hmem)
      | mark written mark =>
          obtain ⟨token, htoken, hrun⟩ := bind_eq_ok.1 h
          obtain ⟨others, hothers, htokens⟩ := bind_eq_ok.1 hrun
          cases htokens
          rcases List.mem_append.1 hmem with hmem | hmem
          · exact absurd (Option.mem_toList.1 hmem) (ofMark_ne_text htoken content)
          · exact List.mem_cons_of_mem _ (ih hothers hmem)

/-- The literals of a template are the text between its marks. -/
theorem literalsAll_of_parseTemplate {source : String} {statements : List Statement}
    (htext : ∀ content ∈ textPieces source, holds (String.ofList content))
    (h : parseTemplate source = .ok statements) : Statement.LiteralsAll holds statements := by
  obtain ⟨tokens, htokens, hparse⟩ := bind_eq_ok.1 h
  apply literalsAll_of_parseTokens ?_ hparse
  intro content hmem
  have hpiece : content.toList ∈ textPieces source :=
    List.mem_filterMap.2 ⟨.text content.toList, mem_of_ofPieces htokens hmem, rfl⟩
  have hcontent := htext content.toList hpiece
  rwa [String.ofList_toList] at hcontent

end Literals

end ComponentTemplates.Template
