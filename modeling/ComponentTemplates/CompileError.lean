/-
Module: ComponentTemplates.CompileError
Purpose: Why a template or a component tag cannot be compiled, with the line that is to blame and the
  text that says so.
Main exports: Block, TemplateFault, CompileError, CompileError.line?, CompileError.message
-/

namespace ComponentTemplates

/-- The blocks of the template language. -/
inductive Block where
  | choice
  | loop
  | within
deriving DecidableEq, Repr, Inhabited

/-- The word that opens a block. -/
def Block.keyword : Block → String
  | .choice => "if"
  | .loop => "loop"
  | .within => "with"

/-- The word that closes a block. -/
def Block.endKeyword (block : Block) : String :=
  "end_" ++ block.keyword

/-- A block tag as messages show it. -/
def blockTag (keyword : String) : String :=
  "<% " ++ keyword ++ " %>"

/-- What is wrong with a template. -/
inductive TemplateFault where
  /-- What stands behind a dollar sign is no lookup. -/
  | malformedVariable (path : String)
  /-- The argument of a block tag is no lookup. -/
  | malformedArgument (keyword argument : String)
  /-- A block tag stands where it may not. -/
  | unexpectedTag (keyword : String)
  /-- A block is not closed. -/
  | unclosed (block : Block)
deriving DecidableEq, Repr, Inhabited

/-- The text of a fault, without its line. -/
def TemplateFault.message : TemplateFault → String
  | .malformedVariable path => "Malformed variable \"$" ++ path ++ "\""
  | .malformedArgument keyword argument =>
      "Malformed " ++ blockTag keyword ++ " argument \"" ++ argument ++ "\""
  | .unexpectedTag keyword => "Unexpected " ++ blockTag keyword
  | .unclosed block =>
      "Missing " ++ blockTag block.endKeyword ++ " for " ++ blockTag block.keyword

/-- Why something cannot be compiled. -/
inductive CompileError where
  /-- A property holds the opening of a choice. -/
  | missingEndIf (property component : String) (line : Option Nat)
  /-- A property holds the opening of a loop. -/
  | loopInProperty (property component : String) (line : Option Nat)
  /-- A component has both inner markup and a property of that name. -/
  | childrenCollision (component : String) (line : Option Nat)
  /-- A template breaks the rules of its language. -/
  | template (fault : TemplateFault) (line : Nat)
deriving DecidableEq, Repr, Inhabited

namespace CompileError

/-- The line to blame, where it is known. -/
def line? : CompileError → Option Nat
  | .missingEndIf _ _ line => line
  | .loopInProperty _ _ line => line
  | .childrenCollision _ line => line
  | .template _ line => some line

/-- The text of the error. -/
def message : CompileError → String
  | .missingEndIf property component _ =>
      "Missing < % end_if % > inside property \"" ++ property ++ "\" on component \""
        ++ component ++ "\""
  | .loopInProperty property component _ =>
      "Cannot use < % loop % > inside property \"" ++ property ++ "\" on component \""
        ++ component ++ "\""
  | .childrenCollision _ _ => "Cannot use \"children\" as a property name and have inner HTML."
  | .template fault line => fault.message ++ " on line " ++ toString line

end CompileError

end ComponentTemplates
