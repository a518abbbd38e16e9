/-
Module: ComponentTemplates.Template.Parser
Purpose: Templates as statements, by recursive descent. Statements are read up to a tag that ends the body
  they stand in, and what such a tag says is handed back to the block around it. A block reads its
  bodies in the same way: one for a loop or a scope, and as many as there are branches for a choice.
  What is left of the tokens is handed on. A body that the tokens end in the middle of is an error of
  the block, at the line it was opened on.
Main exports: Terminator, Body, ReadBlock, parseUntil, parseBlock, parseBranches, parseTemplate
-/
import ComponentTemplates.Statement.Basic
import ComponentTemplates.Template.Token

namespace ComponentTemplates.Template

/-- The tag that ended a body. -/
structure Terminator where
  keyword : String
  argument : String
  line : Nat
deriving DecidableEq, Repr

/-- A block whose body is being read, and the line it was opened on. -/
structure Opening where
  block : Block
  line : Nat
deriving DecidableEq, Repr

/-- What is read of tokens as a body: its statements, the tag that ended it unless the tokens were over,
and the tokens behind. -/
structure Body (tokens : List Token) where
  statements : List Statement
  terminator : Option Terminator
  rest : List Token
  /-- The tag is one of the tokens that are read. -/
  length_le : rest.length + terminator.toList.length ≤ tokens.length

/-- What is read of tokens as a block, and the tokens behind it. -/
structure ReadBlock (tokens : List Token) where
  statement : Statement
  rest : List Token
  length_le : rest.length ≤ tokens.length

/-- The body with a statement in front that was read before it. -/
def Body.cons {tokens before : List Token} (statement : Statement) (body : Body tokens)
    (h : tokens.length ≤ before.length) : Body before where
  statements := statement :: body.statements
  terminator := body.terminator
  rest := body.rest
  length_le := Nat.le_trans body.length_le h

/-- Behind a body, there is no more left than there was. -/
theorem Body.rest_le {tokens : List Token} (body : Body tokens) :
    body.rest.length ≤ tokens.length :=
  Nat.le_trans (Nat.le_add_right ..) body.length_le

/-- Behind a tag, there is less left than there was. -/
theorem Body.rest_lt {tokens : List Token} {body : Body tokens} {terminator : Terminator}
    (h : body.terminator = some terminator) : body.rest.length < tokens.length := by
  have hlength := body.length_le
  rw [h] at hlength
  exact hlength

/-- The subject of a block tag: the value that it asks for, loops over or brings in scope. -/
def subject (keyword argument : String) (line : Nat) : Except CompileError Lookup :=
  match Lookup.parse? argument .object with
  | some lookup => .ok lookup
  | none => .error (.template (.malformedArgument keyword argument) line)

-- A body over some tokens may be reached through a choice and a block over the same tokens, so each token
-- counts for three steps.
mutual

/-- Reads statements up to a tag with one of the given keywords. Without it, the tokens may be over only
where no block has been opened. -/
def parseUntil (terminators : List String) (opening : Option Opening) (tokens : List Token) :
    Except CompileError (Body tokens) :=
  match tokens with
  | [] =>
      match opening with
      | some opening => .error (.template (.unclosed opening.block) opening.line)
      | none => .ok { statements := [], terminator := none, rest := [], length_le := Nat.le_refl 0 }
  | .text content :: rest => do
      let body ← parseUntil terminators opening rest
      return body.cons (.append .page (.literal content)) (Nat.le_succ _)
  | .insertion lookup :: rest => do
      let body ← parseUntil terminators opening rest
      return body.cons (.append .page (.value lookup)) (Nat.le_succ _)
  | .block keyword argument line :: rest =>
      if keyword ∈ terminators then
        .ok {
          statements := []
          terminator := some { keyword, argument, line }
          rest
          length_le := Nat.le_refl _ }
      else do
        let block ← parseBlock keyword argument line rest
        have : block.rest.length < rest.length + 1 := Nat.lt_succ_of_le block.length_le
        let body ← parseUntil terminators opening block.rest
        return body.cons block.statement (Nat.le_succ_of_le block.length_le)
termination_by 3 * tokens.length

/-- Reads a block behind the tag that opens it. Any other tag is out of place. -/
def parseBlock (keyword argument : String) (line : Nat) (tokens : List Token) :
    Except CompileError (ReadBlock tokens) :=
  match keyword with
  | "if" => do
      let condition ← subject "if" argument line
      parseBranches [] condition line tokens
  | "loop" => do
      let subject ← subject "loop" argument line
      let body ← parseUntil ["end_loop"] (some { block := .loop, line }) tokens
      return { statement := .loop subject body.statements, rest := body.rest, length_le := body.rest_le }
  | "with" => do
      let scope ← subject "with" argument line
      let body ← parseUntil ["end_with"] (some { block := .within, line }) tokens
      return { statement := .within scope body.statements, rest := body.rest, length_le := body.rest_le }
  | _ => .error (.template (.unexpectedTag keyword) line)
termination_by 3 * tokens.length + 2

/-- Reads a choice from the body of a branch on, behind the branches that are finished. -/
def parseBranches (finished : List Branch) (condition : Lookup) (line : Nat) (tokens : List Token) :
    Except CompileError (ReadBlock tokens) := do
  let body ← parseUntil ["else_if", "else", "end_if"] (some { block := .choice, line }) tokens
  let finished := finished ++ [⟨condition, body.statements⟩]
  let choice : ReadBlock tokens :=
    { statement := .choose finished none, rest := body.rest, length_le := body.rest_le }
  match h : body.terminator with
  | none => return choice
  | some terminator =>
      have : body.rest.length < tokens.length := Body.rest_lt h
      match terminator.keyword with
      | "else_if" => do
          let next ← subject "else_if" terminator.argument terminator.line
          let block ← parseBranches finished next line body.rest
          return { block with length_le := Nat.le_trans block.length_le body.rest_le }
      | "else" => do
          let last ← parseUntil ["end_if"] (some { block := .choice, line }) body.rest
          return {
            statement := .choose finished (some last.statements)
            rest := last.rest
            length_le := Nat.le_trans last.rest_le body.rest_le }
      | _ => return choice
termination_by 3 * tokens.length + 1

end

/-- The statements that tokens stand for. -/
def parseTokens (tokens : List Token) : Except CompileError (List Statement) := do
  let body ← parseUntil [] none tokens
  return body.statements

/-- The statements that a template stands for. They write to the page. -/
def parseTemplate (source : String) : Except CompileError (List Statement) := do
  parseTokens (← Token.ofSource source)

end ComponentTemplates.Template
