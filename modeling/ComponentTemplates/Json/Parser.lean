/-
Module: ComponentTemplates.Json.Parser
Purpose: JSON text as values. The tokens are read from left to right with a stack of the arrays and
  objects that are still open. What may come next is known at every point, and the text is JSON iff
  nothing else ever comes and the value is complete in the end.
Main exports: Json.parse?, Json.parseReadable?
-/
import ComponentTemplates.Json.Token

namespace ComponentTemplates.Json

/-- An open array or object, with its parts so far, the latest first. -/
inductive Level where
  | array (items : List Json)
  /-- With the name of the member whose value comes next. -/
  | object (members : List (Option String × Json)) (name : Option String)

/-- What may come next. -/
inductive Awaited where
  | value
  | firstItem
  | firstName
  | name
  | colon
  | separator
deriving DecidableEq

/-- What has been read so far: the open arrays and objects, the innermost first, how many they are,
and the value if it is complete. -/
structure ParserState where
  levels : List Level := []
  depth : Nat := 0
  awaited : Awaited := .value
  result : Option Json := none

/-- Arrays and objects may be nested this deep. -/
def depthLimit : Nat := 127

/-- The object with the given members, unless one of them has no name. -/
def ofMembers (members : List (Option String × Json)) : Json :=
  match members.mapM fun member => member.1.map fun name => (name, member.2) with
  | some members => .object members
  | none => .invalid

namespace ParserState

/-- Goes on behind a value. -/
def complete (state : ParserState) (value : Json) : ParserState :=
  match state.levels with
  | [] => { state with awaited := .separator, result := some value }
  | .array items :: outer =>
      { state with awaited := .separator, levels := .array (value :: items) :: outer }
  | .object members name :: outer =>
      { state with
        awaited := .separator
        levels := .object ((name, value) :: members) none :: outer }

/-- Opens an array or object. -/
def enter (state : ParserState) (level : Level) (awaited : Awaited) : ParserState :=
  { state with levels := level :: state.levels, depth := state.depth + 1, awaited }

/-- Closes the innermost array or object, which is the given value. -/
def leave (state : ParserState) (outer : List Level) (value : Json) : ParserState :=
  { state with levels := outer, depth := state.depth - 1 }.complete
    (if state.depth ≤ depthLimit then value else .invalid)

/-- Reads a token where a value may come. -/
def stepValue? (state : ParserState) : Token → Option ParserState
  | .openArray => some (state.enter (.array []) .firstItem)
  | .openObject => some (state.enter (.object [] none) .firstName)
  | .text value => some (state.complete ((value.map Json.string).getD .invalid))
  | .scalar value => some (state.complete value)
  | _ => none

/-- Reads a token where the name of a member may come. -/
def stepName? (state : ParserState) (token : Token) : Option ParserState :=
  match token, state.levels with
  | .text name, .object members _ :: outer =>
      some { state with awaited := .colon, levels := .object members name :: outer }
  | _, _ => none

/-- Reads a token where the innermost array or object may end. -/
def stepClose? (state : ParserState) (token : Token) : Option ParserState :=
  match token, state.levels with
  | .closeArray, .array items :: outer => some (state.leave outer (.array items.reverse))
  | .closeObject, .object members _ :: outer =>
      some (state.leave outer (ofMembers members.reverse))
  | _, _ => none

/-- Reads a comma, behind which the innermost array or object goes on. -/
def stepComma? (state : ParserState) (token : Token) : Option ParserState :=
  match token, state.levels with
  | .comma, .array _ :: _ => some { state with awaited := .value }
  | .comma, .object _ _ :: _ => some { state with awaited := .name }
  | _, _ => none

/-- Reads a token. -/
def step? (state : ParserState) (token : Token) : Option ParserState :=
  match state.awaited with
  | .value => state.stepValue? token
  | .firstItem => state.stepClose? token <|> state.stepValue? token
  | .firstName => state.stepClose? token <|> state.stepName? token
  | .name => state.stepName? token
  | .colon =>
      match token with
      | .colon => some { state with awaited := .value }
      | _ => none
  | .separator => state.stepComma? token <|> state.stepClose? token

end ParserState

/-- The value that a text writes. Parts of it may be invalid. -/
def parse? (text : String) : Option Json := do
  let tokens ← Token.ofText? text.toList
  let state ← tokens.foldlM ParserState.step? {}
  state.result

/-- The value that a text writes, if every part of it can be read. -/
def parseReadable? (text : String) : Option Json := do
  let json ← parse? text
  if json.readable then some json else none

end ComponentTemplates.Json
