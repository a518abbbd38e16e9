/-
Module: ComponentTemplates.Template.Token
Purpose: The tokens of a template: text, lookups whose markup is inserted, and block tags with their
  lines. Comments leave no token. A mark that begins like a lookup and is none is an error.
Main exports: Token, Token.ofPieces, Token.ofSource
-/
import ComponentTemplates.CompileError
import ComponentTemplates.Lookup.Parser
import ComponentTemplates.Template.Mark

namespace ComponentTemplates.Template

/-- What a template is made of, as far as its meaning goes. -/
inductive Token where
  | text (content : String)
  | insertion (lookup : Lookup)
  | block (keyword argument : String) (line : Nat)
deriving DecidableEq, Repr, Inhabited

/-- The line that a text goes on in when it began in the given one. -/
def lineAfter (line : Nat) (cs : List Char) : Nat :=
  line + cs.count '\n'

namespace Token

/-- The token of a mark on the given line, if it has one. -/
def ofMark (line : Nat) : Mark → Except CompileError (Option Token)
  | .comment => .ok none
  | .block keyword argument =>
      .ok (some (.block (String.ofList keyword) (String.ofList argument) line))
  | .lookup path =>
      match Lookup.parse? (String.ofList path) .render with
      | some lookup => .ok (some (.insertion lookup))
      | none => .error (.template (.malformedVariable (String.ofList path)) line)

/-- The tokens of pieces that begin on the given line. The first fault is the result. -/
def ofPieces (line : Nat) : List Piece → Except CompileError (List Token)
  | [] => .ok []
  | .text content :: rest => do
      let tokens ← ofPieces (lineAfter line content) rest
      return .text (String.ofList content) :: tokens
  | .mark written mark :: rest => do
      let token ← ofMark line mark
      let tokens ← ofPieces (lineAfter line written) rest
      return token.toList ++ tokens

/-- The tokens of a template. -/
def ofSource (source : String) : Except CompileError (List Token) :=
  ofPieces 1 (split source.toList)

end Token

end ComponentTemplates.Template
