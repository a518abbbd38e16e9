/-
Module: ComponentTemplates.Proofs.Template.OpenBlocks
Purpose: Templates read with a stack of the blocks that are open, one token after another. An opening tag
  puts a block on the stack, a closing tag takes the innermost one off and adds its statement to the
  block around it; the first tag that fits nowhere is the error, and if all fit, a block that stays
  open. Main statement: this is what the recursive descent comes to (`parseTokens_eq_run`), for a body
  that it reads is the innermost one on the stack, and the tags that end it are those that the
  innermost block waits for.
Main exports: OpenBlock, ParserState, ParserState.step, ParserState.run, run_eq_parseUntil,
  parseTokens_eq_run, parseTemplate_eq_run
-/
import ComponentTemplates.Proofs.Except
import ComponentTemplates.Template.Parser

namespace ComponentTemplates.Template

/-! ## Open blocks -/

/-- A block that has been opened, with what is known of it so far. Branches that are finished are kept
with the latest first. -/
inductive OpenBlock where
  /-- In the body of a branch with the given condition. -/
  | branch (finished : List Branch) (condition : Lookup)
  /-- In the body that runs when no condition has a value. -/
  | otherwise (branches : List Branch)
  | loop (subject : Lookup)
  | within (scope : Lookup)

namespace OpenBlock

/-- The kind of an open block. -/
def block : OpenBlock → Block
  | .branch _ _ | .otherwise _ => .choice
  | .loop _ => .loop
  | .within _ => .within

/-- The statement of a block whose last body is complete. -/
def close (openBlock : OpenBlock) (body : List Statement) : Statement :=
  match openBlock with
  | .branch finished condition => .choose ((⟨condition, body⟩ :: finished).reverse) none
  | .otherwise branches => .choose branches (some body)
  | .loop subject => .loop subject body
  | .within scope => .within scope body

/-- The words of the tags that end the body that is being read. -/
def terminators : OpenBlock → List String
  | .branch _ _ => ["else_if", "else", "end_if"]
  | .otherwise _ => ["end_if"]
  | .loop _ => ["end_loop"]
  | .within _ => ["end_with"]

end OpenBlock

/-- An open block on the stack: the line it was opened on, and the statements around it that come
before it, the latest first. -/
structure Level where
  openBlock : OpenBlock
  line : Nat
  before : List Statement

/-- What has been read so far: the open blocks, the innermost first, and the statements of the
innermost body, the latest first. -/
structure ParserState where
  levels : List Level := []
  body : List Statement := []

namespace ParserState

/-- Adds a statement to the innermost body. -/
def add (state : ParserState) (statement : Statement) : ParserState :=
  { state with body := statement :: state.body }

/-- Opens a block inside the innermost body. -/
def enter (state : ParserState) (openBlock : OpenBlock) (line : Nat) : ParserState :=
  { levels := { openBlock, line, before := state.body } :: state.levels, body := [] }

/-- Closes the given innermost block. -/
def leave (state : ParserState) (level : Level) (outer : List Level) : ParserState :=
  { levels := outer, body := level.openBlock.close state.body.reverse :: level.before }

/-- Goes from one body of a choice to its next. -/
def turn (state : ParserState) (level : Level) (outer : List Level) (openBlock : OpenBlock) :
    ParserState :=
  { state with levels := { level with openBlock } :: outer, body := [] }

/-- Reads a tag that opens a block; any other tag is out of place. -/
def openTag (state : ParserState) (keyword argument : String) (line : Nat) :
    Except CompileError ParserState :=
  match keyword with
  | "if" => do return state.enter (.branch [] (← subject keyword argument line)) line
  | "loop" => do return state.enter (.loop (← subject keyword argument line)) line
  | "with" => do return state.enter (.within (← subject keyword argument line)) line
  | _ => .error (.template (.unexpectedTag keyword) line)

/-- Reads a block tag. What it may be depends on the innermost block. -/
def blockTag (state : ParserState) (keyword argument : String) (line : Nat) :
    Except CompileError ParserState :=
  match state.levels with
  | [] => state.openTag keyword argument line
  | level :: outer =>
      if keyword = level.openBlock.block.endKeyword then .ok (state.leave level outer)
      else
        match level.openBlock, keyword with
        | .branch finished condition, "else_if" => do
            let next ← subject keyword argument line
            return state.turn level outer
              (.branch (⟨condition, state.body.reverse⟩ :: finished) next)
        | .branch finished condition, "else" =>
            .ok (state.turn level outer
              (.otherwise ((⟨condition, state.body.reverse⟩ :: finished).reverse)))
        | _, _ => state.openTag keyword argument line

/-- Reads a token. -/
def step (state : ParserState) : Token → Except CompileError ParserState
  | .text content => .ok (state.add (.append .page (.literal content)))
  | .insertion lookup => .ok (state.add (.append .page (.value lookup)))
  | .block keyword argument line => state.blockTag keyword argument line

/-- The program that has been read, if no block is open any more. -/
def finish (state : ParserState) : Except CompileError (List Statement) :=
  match state.levels with
  | [] => .ok state.body.reverse
  | level :: _ => .error (.template (.unclosed level.openBlock.block) level.line)

/-- The program that is read once the tokens are, too. -/
def run (state : ParserState) (tokens : List Token) : Except CompileError (List Statement) := do
  let state ← tokens.foldlM step state
  state.finish

/-- The words of the tags that the innermost block waits for. -/
def terminators (state : ParserState) : List String :=
  match state.levels with
  | [] => []
  | level :: _ => level.openBlock.terminators

/-- The innermost block and where it was opened. -/
def opening (state : ParserState) : Option Opening :=
  match state.levels with
  | [] => none
  | level :: _ => some { block := level.openBlock.block, line := level.line }

section Tags

variable {state : ParserState} {level : Level} {outer : List Level} {line : Nat}

/-- The closing tag of the innermost block closes it, whatever its argument. -/
theorem blockTag_close (hlevels : state.levels = level :: outer) (argument : String) :
    state.blockTag level.openBlock.block.endKeyword argument line =
      .ok (state.leave level outer) := by
  unfold blockTag
  rw [hlevels]
  exact if_pos rfl

variable {finished : List Branch} {condition : Lookup}

/-- In a branch, a further condition finishes the branch and begins the next one. -/
theorem blockTag_nextBranch (hlevels : state.levels = level :: outer)
    (hopen : level.openBlock = .branch finished condition) (argument : String) :
    state.blockTag "else_if" argument line = do
      return state.turn level outer (.branch (⟨condition, state.body.reverse⟩ :: finished)
        (← subject "else_if" argument line)) := by
  have hother : "else_if" ≠ Block.choice.endKeyword := by decide
  unfold blockTag
  rw [hlevels]
  simp only [hopen]
  exact if_neg hother

/-- In a branch, an else part finishes the branch, whatever the tag's argument. -/
theorem blockTag_otherwise (hlevels : state.levels = level :: outer)
    (hopen : level.openBlock = .branch finished condition) (argument : String) :
    state.blockTag "else" argument line =
      .ok (state.turn level outer
        (.otherwise (⟨condition, state.body.reverse⟩ :: finished).reverse)) := by
  have hother : "else" ≠ Block.choice.endKeyword := by decide
  unfold blockTag
  rw [hlevels]
  simp only [hopen]
  exact if_neg hother

end Tags

theorem run_cons (state : ParserState) (token : Token) (rest : List Token) :
    state.run (token :: rest) = (state.step token >>= fun next => next.run rest) := by
  rw [run, List.foldlM_cons, bind_assoc]
  rfl

/-- What comes of a body that has been read: it is added to the innermost one, and the tag that ended it is
read as any other. -/
def resume {tokens : List Token} (state : ParserState) (body : Body tokens) :
    Except CompileError (List Statement) :=
  let state : ParserState := { state with body := body.statements.reverse ++ state.body }
  match body.terminator with
  | none => .ok state.body.reverse
  | some tag => do
      let next ← state.blockTag tag.keyword tag.argument tag.line
      next.run body.rest

/-- A statement that is read belongs to the same body as those behind it. -/
theorem resume_cons {tokens before : List Token} (state : ParserState) (statement : Statement)
    (body : Body tokens) (h : tokens.length ≤ before.length) :
    state.resume (body.cons statement h) = (state.add statement).resume body := by
  simp [resume, Body.cons, add]

/-- No tag but those that the innermost block waits for has a meaning of its own there. -/
theorem blockTag_of_not_mem {state : ParserState} {keyword : String}
    (h : keyword ∉ state.terminators) (argument : String) (line : Nat) :
    state.blockTag keyword argument line = state.openTag keyword argument line := by
  unfold terminators at h
  unfold blockTag
  split
  · rfl
  · rename_i level outer hlevels
    rw [hlevels] at h
    have hend : keyword ≠ level.openBlock.block.endKeyword := by
      rintro rfl
      cases hblock : level.openBlock with
      | _ => simp [hblock, OpenBlock.terminators, OpenBlock.block, Block.endKeyword, Block.keyword] at h
    rw [if_neg hend]
    split
    · rename_i finished condition hblock
      simp [hblock, OpenBlock.terminators] at h
    · rename_i finished condition hblock
      simp [hblock, OpenBlock.terminators] at h
    · rfl

end ParserState

/-! ## The tag that ends a body -/

/-- The tag that ended a body is one of those that were asked for; and inside a block, there is one. -/
theorem terminator_of_parseUntil {terminators : List String} {opening : Option Opening}
    {tokens : List Token} {body : Body tokens} (h : parseUntil terminators opening tokens = .ok body) :
    (∀ tag ∈ body.terminator, tag.keyword ∈ terminators) ∧
      (opening.isSome = true → body.terminator.isSome = true) := by
  cases tokens with
  | nil =>
      cases opening with
      | none =>
          rw [parseUntil] at h
          cases h
          constructor
          · intro tag htag
            cases htag
          · intro hsome
            cases hsome
      | some opening =>
          rw [parseUntil] at h
          cases h
  | cons token rest =>
      cases token with
      | text content =>
          rw [parseUntil] at h
          obtain ⟨inner, hinner, hbody⟩ := bind_eq_ok.1 h
          have hends := terminator_of_parseUntil hinner
          cases hbody
          exact hends
      | insertion lookup =>
          rw [parseUntil] at h
          obtain ⟨inner, hinner, hbody⟩ := bind_eq_ok.1 h
          have hends := terminator_of_parseUntil hinner
          cases hbody
          exact hends
      | block keyword argument line =>
          rw [parseUntil] at h
          split at h
          · rename_i hmem
            cases h
            refine ⟨?_, fun _ => rfl⟩
            intro tag htag
            cases htag
            exact hmem
          · obtain ⟨block, _, hrest⟩ := bind_eq_ok.1 h
            have hlength : block.rest.length < rest.length + 1 := Nat.lt_succ_of_le block.length_le
            obtain ⟨inner, hinner, hbody⟩ := bind_eq_ok.1 hrest
            have hends := terminator_of_parseUntil hinner
            cases hbody
            exact hends
termination_by tokens.length

/-- The body of a block ends with a tag that the block waits for. -/
theorem exists_terminator_of_parseUntil {terminators : List String} {opening : Opening}
    {tokens : List Token} {body : Body tokens}
    (h : parseUntil terminators (some opening) tokens = .ok body) :
    ∃ tag, body.terminator = some tag ∧ tag.keyword ∈ terminators := by
  obtain ⟨hmem, hsome⟩ := terminator_of_parseUntil h
  obtain ⟨tag, htag⟩ := Option.isSome_iff_exists.1 (hsome rfl)
  exact ⟨tag, htag, hmem tag htag⟩

/-! ## The descent on the stack -/

open ParserState

section Closing

variable {state : ParserState} {openBlock : OpenBlock} {line : Nat} {tokens : List Token}

/-- The tag that ended a body is read where the block of the body is the innermost one. -/
theorem resume_enter {body : Body tokens} {tag : Terminator} (htag : body.terminator = some tag) :
    (state.enter openBlock line).resume body =
      (({ levels := { openBlock, line, before := state.body } :: state.levels
          body := body.statements.reverse } : ParserState).blockTag tag.keyword tag.argument tag.line >>=
        fun next => next.run body.rest) := by
  rw [resume, htag, enter, List.append_nil]

/-- The closing tag makes the block a statement of the body around it. -/
theorem resume_of_closing {body : Body tokens} {tag : Terminator} (htag : body.terminator = some tag)
    (hkeyword : tag.keyword = openBlock.block.endKeyword) :
    (state.enter openBlock line).resume body =
      (state.add (openBlock.close body.statements)).run body.rest := by
  let level : Level := { openBlock, line, before := state.body }
  let inner : ParserState := { levels := level :: state.levels, body := body.statements.reverse }
  have hlevels : inner.levels = level :: state.levels := rfl
  rw [resume_enter htag, hkeyword]
  refine (congrArg (· >>= _) (blockTag_close hlevels tag.argument)).trans ?_
  rw [ok_bind, leave, List.reverse_reverse]
  rfl

/-- A block that only its closing tag can end. -/
theorem run_of_closing (hwaits : openBlock.terminators = [openBlock.block.endKeyword])
    (hrun : (state.enter openBlock line).run tokens =
      (parseUntil openBlock.terminators (some { block := openBlock.block, line }) tokens >>=
        (state.enter openBlock line).resume)) :
    (state.enter openBlock line).run tokens =
      (parseUntil [openBlock.block.endKeyword] (some { block := openBlock.block, line }) tokens >>=
        fun body => (state.add (openBlock.close body.statements)).run body.rest) := by
  rw [hrun, hwaits]
  refine bind_congr_of_ok fun body hparse => ?_
  obtain ⟨tag, htag, hkeyword⟩ := exists_terminator_of_parseUntil hparse
  exact resume_of_closing htag (List.mem_singleton.1 hkeyword)

end Closing

section Branches

variable {state : ParserState} {finished : List Branch} {condition : Lookup} {line : Nat}
  {tokens : List Token} {body : Body tokens} {tag : Terminator}

/-- A branch that ended at a further condition is resumed in the next branch. -/
theorem resume_of_nextBranch (htag : body.terminator = some tag) (hkeyword : tag.keyword = "else_if") :
    (state.enter (.branch finished.reverse condition) line).resume body =
      (subject "else_if" tag.argument tag.line >>= fun next =>
        (state.enter (.branch (finished ++ [⟨condition, body.statements⟩] : List Branch).reverse next)
          line).run body.rest) := by
  rw [resume_enter htag, hkeyword, blockTag_nextBranch rfl rfl, bind_assoc, List.reverse_append,
    List.reverse_reverse]
  rfl

/-- A branch that ended at an else part is resumed in the else part. -/
theorem resume_of_otherwise (htag : body.terminator = some tag) (hkeyword : tag.keyword = "else") :
    (state.enter (.branch finished.reverse condition) line).resume body =
      (state.enter (.otherwise (finished ++ [⟨condition, body.statements⟩])) line).run body.rest := by
  rw [resume_enter htag, hkeyword, blockTag_otherwise rfl rfl, ok_bind, List.reverse_reverse,
    List.reverse_cons, List.reverse_reverse]
  rfl

end Branches

-- The recursion is that of the descent. The state is arbitrary, for a body is read inside its block, and
-- what comes behind the block is read in the body around it.
mutual

/-- A body is read as the innermost one on the stack. -/
theorem run_eq_parseUntil (state : ParserState) (tokens : List Token) :
    state.run tokens = (parseUntil state.terminators state.opening tokens >>= state.resume) := by
  cases tokens with
  | nil =>
      obtain ⟨levels, statements⟩ := state
      cases levels with
      | nil =>
          change _ = (parseUntil [] none [] >>= _)
          rw [parseUntil]
          rfl
      | cons level outer =>
          change _ = (parseUntil _ (some _) [] >>= _)
          rw [parseUntil]
          rfl
  | cons token rest =>
      rw [run_cons]
      cases token with
      | text content =>
          have hrest := run_eq_parseUntil (state.add (.append .page (.literal content))) rest
          rw [parseUntil, bind_assoc]
          refine hrest.trans (bind_congr_of_ok fun body _ => ?_)
          exact (state.resume_cons _ body _).symm
      | insertion lookup =>
          have hrest := run_eq_parseUntil (state.add (.append .page (.value lookup))) rest
          rw [parseUntil, bind_assoc]
          refine hrest.trans (bind_congr_of_ok fun body _ => ?_)
          exact (state.resume_cons _ body _).symm
      | block keyword argument line =>
          rw [parseUntil]
          split
          · rfl
          · rename_i hmem
            have hblock := openTag_eq_parseBlock state keyword argument line rest
            rw [bind_assoc]
            refine (congrArg (· >>= _) (blockTag_of_not_mem hmem argument line)).trans ?_
            rw [hblock]
            refine bind_congr_of_ok fun block _ => ?_
            have hlength : block.rest.length < rest.length + 1 := Nat.lt_succ_of_le block.length_le
            have hrest := run_eq_parseUntil (state.add block.statement) block.rest
            rw [bind_assoc]
            refine hrest.trans (bind_congr_of_ok fun body _ => ?_)
            exact (state.resume_cons _ body _).symm
termination_by 3 * tokens.length

/-- A block is read and added to the innermost body. -/
theorem openTag_eq_parseBlock (state : ParserState) (keyword argument : String) (line : Nat)
    (tokens : List Token) :
    (state.openTag keyword argument line >>= fun next => next.run tokens) =
      (parseBlock keyword argument line tokens >>= fun block =>
        (state.add block.statement).run block.rest) := by
  unfold openTag
  split
  · rw [parseBlock, bind_assoc, bind_assoc]
    refine bind_congr_of_ok fun condition _ => ?_
    exact run_eq_parseBranches state [] condition line tokens
  · rw [parseBlock, bind_assoc, bind_assoc]
    refine bind_congr_of_ok fun subject _ => ?_
    rw [bind_assoc]
    exact run_of_closing rfl (run_eq_parseUntil (state.enter (.loop subject) line) tokens)
  · rw [parseBlock, bind_assoc, bind_assoc]
    refine bind_congr_of_ok fun scope _ => ?_
    rw [bind_assoc]
    exact run_of_closing rfl (run_eq_parseUntil (state.enter (.within scope) line) tokens)
  · rename_i hif hloop hwith
    rw [parseBlock]
    · rfl
    · exact hif
    · exact hloop
    · exact hwith
termination_by 3 * tokens.length + 2

/-- A choice is read from a branch on, behind the branches that are finished. -/
theorem run_eq_parseBranches (state : ParserState) (finished : List Branch) (condition : Lookup)
    (line : Nat) (tokens : List Token) :
    (state.enter (.branch finished.reverse condition) line).run tokens =
      (parseBranches finished condition line tokens >>= fun block =>
        (state.add block.statement).run block.rest) := by
  rw [parseBranches, bind_assoc,
    run_eq_parseUntil (state.enter (.branch finished.reverse condition) line) tokens]
  refine bind_congr_of_ok fun body hparse => ?_
  obtain ⟨tag, htag, hkeyword⟩ := exists_terminator_of_parseUntil hparse
  have hlength : body.rest.length < tokens.length := Body.rest_lt htag
  dsimp only
  split
  · rename_i hnone
    rw [htag] at hnone
    cases hnone
  · rename_i found hfound
    obtain rfl : tag = found := Option.some.inj (htag.symm.trans hfound)
    split
    · rename_i helseIf
      rw [resume_of_nextBranch htag helseIf, bind_assoc]
      refine bind_congr_of_ok fun next _ => ?_
      rw [bind_assoc]
      exact run_eq_parseBranches state _ next line body.rest
    · rename_i helse
      rw [resume_of_otherwise htag helse, bind_assoc]
      exact run_of_closing rfl (run_eq_parseUntil (state.enter (.otherwise _) line) body.rest)
    · rename_i helseIf helse
      have hwaits : tag.keyword = "else_if" ∨ tag.keyword = "else" ∨ tag.keyword = "end_if" := by
        simpa [enter, terminators, OpenBlock.terminators] using hkeyword
      have hend : tag.keyword = (OpenBlock.branch finished.reverse condition).block.endKeyword :=
        (hwaits.resolve_left helseIf).resolve_left helse
      rw [resume_of_closing htag hend, OpenBlock.close, List.reverse_cons, List.reverse_reverse]
      rfl
termination_by 3 * tokens.length + 1

end

/-- **Descent**: what is read by recursive descent is what is read with a stack of open blocks, and where
either fails, the other does so with the same error. -/
theorem parseTokens_eq_run (tokens : List Token) : parseTokens tokens = ({} : ParserState).run tokens := by
  have hrun : ({} : ParserState).run tokens = (parseUntil [] none tokens >>= ({} : ParserState).resume) :=
    run_eq_parseUntil {} tokens
  rw [hrun]
  refine bind_congr_of_ok fun body hparse => ?_
  have hnone : body.terminator = none := by
    cases htag : body.terminator with
    | none => rfl
    | some tag => exact absurd ((terminator_of_parseUntil hparse).1 tag htag) List.not_mem_nil
  rw [resume, hnone, List.append_nil, List.reverse_reverse]
  rfl

/-- A template is parsed as its tokens are run from no open block. -/
theorem parseTemplate_eq_run (source : String) :
    parseTemplate source = (Token.ofSource source >>= ({} : ParserState).run) :=
  bind_congr_of_ok fun tokens _ => parseTokens_eq_run tokens

end ComponentTemplates.Template
