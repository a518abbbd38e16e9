/-
Module: ComponentTemplates.Codec.Encode
Purpose: The JSON forms of lookups, statements, tags and configurations, written. Every field is
  written, absent ones as null; records are objects, and the case of a type comes before its content.
Main exports: encodeLookup, encodeStatement, encodeFragment, encodeProduction, encodeConfig
-/
import ComponentTemplates.Config
import ComponentTemplates.Json.Basic
import ComponentTemplates.Production

namespace ComponentTemplates

/-- A list of texts. -/
def encodeStrings (texts : List String) : Json :=
  .array (texts.map .string)

/-- A line, if it is known. -/
def encodeLine : Option Nat → Json
  | some line => .number (.integer line)
  | none => .null

/-- A case with its content under the given name. -/
def encodeCase (kind content : String) (value : Json) : Json :=
  .object [("kind", .string kind), (content, value)]

/-- An operation with its fields. -/
def encodeOperation (name : String) (fields : List (String × Json)) : Json :=
  .object (("op", .string name) :: fields)

/-- The mode of a lookup. -/
def encodeMode : Lookup.Mode → Json
  | .render => .string "render"
  | .object => .string "object"

/-- The kind of a block opener. -/
def encodeOpener : Opener → Json
  | .choice => .string "if"
  | .loop => .string "loop"

/-- A step of a lookup. -/
def encodeStep (step : Lookup.Step) : Json :=
  .object [("name", .string step.name), ("args", encodeStrings step.args)]

/-- A lookup. -/
def encodeLookup (lookup : Lookup) : Json :=
  .object [("steps", .array (lookup.steps.map encodeStep)), ("mode", encodeMode lookup.mode)]

/-- A target. -/
def encodeTarget : Target → Json
  | .page => .object [("kind", .string "page")]
  | .property name => encodeCase "property" "name" (.string name)
  | .children => .object [("kind", .string "children")]

/-- What a statement writes. -/
def encodeExpr : Expr → Json
  | .literal text => encodeCase "literal" "value" (.string text)
  | .value lookup => encodeCase "call" "value" (encodeLookup lookup)

mutual

/-- A statement. -/
def encodeStatement : Statement → Json
  | .append target value =>
      encodeOperation "append" [("target", encodeTarget target), ("value", encodeExpr value)]
  | .choose branches none =>
      encodeOperation "if" [("branches", .array (encodeBranches branches)), ("otherwise", .null)]
  | .choose branches (some body) =>
      encodeOperation "if"
        [("branches", .array (encodeBranches branches)),
          ("otherwise", .array (encodeStatements body))]
  | .loop subject body =>
      encodeOperation "loop"
        [("over", encodeLookup subject), ("body", .array (encodeStatements body))]
  | .within scope body =>
      encodeOperation "with"
        [("scope", encodeLookup scope), ("body", .array (encodeStatements body))]
  | .beginProps => encodeOperation "beginProps" []
  | .initProperty name => encodeOperation "initProperty" [("name", .string name)]
  | .createProperty name => encodeOperation "createProperty" [("name", .string name)]
  | .initChildren => encodeOperation "initChildren" []
  | .sealChildren => encodeOperation "sealChildren" []
  | .renderComponent name target =>
      encodeOperation "renderComponent"
        [("name", .string name), ("target", encodeTarget target)]
termination_by structural statement => statement

/-- Statements in order. -/
def encodeStatements : List Statement → List Json
  | [] => []
  | statement :: rest => encodeStatement statement :: encodeStatements rest
termination_by structural statements => statements

/-- Branches in order. -/
def encodeBranches : List Branch → List Json
  | [] => []
  | ⟨condition, body⟩ :: rest =>
      .object [("condition", encodeLookup condition), ("body", .array (encodeStatements body))] ::
        encodeBranches rest
termination_by structural branches => branches

end

/-- A branch of a choice. -/
def encodeBranch (branch : Branch) : Json :=
  .object
    [("condition", encodeLookup branch.condition), ("body", .array (encodeStatements branch.body))]

/-- Inner markup. -/
def encodeChildren (statements : List Statement) : Json :=
  .object [("statements", .array (encodeStatements statements))]

/-- The guard of a branch, if it has one. -/
def encodeGuard : Option Lookup → Json
  | some guard => encodeLookup guard
  | none => .null

mutual

/-- A part of an attribute's value. -/
def encodeFragment : Fragment → Json
  | .literal text => encodeCase "literal" "value" (.string text)
  | .value lookup => encodeCase "call" "value" (encodeLookup lookup)
  | .branch guard body =>
      encodeCase "branch" "value"
        (.object [("guard", encodeGuard guard), ("body", .array (encodeFragments body))])
  | .opener kind => encodeCase "opener" "value" (encodeOpener kind)
termination_by structural fragment => fragment

/-- Parts in order. -/
def encodeFragments : List Fragment → List Json
  | [] => []
  | fragment :: rest => encodeFragment fragment :: encodeFragments rest
termination_by structural fragments => fragments

end

/-- An attribute. -/
def encodeAttribute (given : Attribute) : Json :=
  .object
    [("name", .string given.name), ("value", .array (encodeFragments given.value)),
      ("line", encodeLine given.line)]

/-- A tag. -/
def encodeProduction (production : Production) : Json :=
  .object
    [("name", .string production.name),
      ("attributes", .array (production.attributes.map encodeAttribute)),
      ("children", (production.children.map encodeChildren).getD .null),
      ("line", encodeLine production.line)]

/-- A configuration. -/
def encodeConfig (config : Config) : Json :=
  .object [("componentPaths", encodeStrings config.componentPaths)]

end ComponentTemplates
