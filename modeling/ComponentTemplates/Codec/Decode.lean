/-
Module: ComponentTemplates.Codec.Decode
Purpose: The JSON forms of lookups, statements, tags and configurations, read. A value that has not the
  form of the type is refused; fields that have a default may be missing, and members that no field
  asks for are left alone.
Main exports: decodeLookup, decodeStatement, decodeFragment, decodeProduction, decodeProductions,
  decodeConfig
-/
import ComponentTemplates.Codec.Fields
import ComponentTemplates.Config
import ComponentTemplates.Production

namespace ComponentTemplates

open Json

/-- A text. -/
def decodeString : Json → Option String
  | .string value => some value
  | _ => none

/-- A list of texts. -/
def decodeStrings (json : Json) : Option (List String) :=
  json.items? fun part => decodeString part.1

/-- A field that may be missing, but then has a default. -/
def decodeOr {α β : Type} (default : β) (part : Option α) (decode : α → Option β) : Option β :=
  match part with
  | some part => decode part
  | none => some default

/-- A value that may be null. -/
def decodeNullable {β : Type} (json : Json) (decode : Json → Option β) : Option (Option β) :=
  match json with
  | .null => some none
  | value => (decode value).map some

/-- The number of a line: whole, not negative, and of at most 64 bits. -/
def decodeLine : Json → Option Nat
  | .number (.integer value) =>
      if 0 ≤ value && value.toNat < Nat.pow 2 64 then some value.toNat else none
  | _ => none

/-- The line of a tag or attribute, which need not be known. -/
def decodeLineField {whole : Json} (part : Option (Part whole)) : Option (Option Nat) :=
  decodeOr none part fun part => decodeNullable part.1 decodeLine

/-- The mode of a lookup. -/
def decodeMode (passage : Passage) (json : Json) : Option Lookup.Mode :=
  match unitCase? passage json with
  | some "render" => some .render
  | some "object" => some .object
  | _ => none

/-- The kind of a block opener. -/
def decodeOpener (passage : Passage) (json : Json) : Option Opener :=
  match unitCase? passage json with
  | some "if" => some .choice
  | some "loop" => some .loop
  | _ => none

/-- A step of a lookup. -/
def decodeStep (json : Json) : Option Lookup.Step := do
  let field ← json.fields? ["name", "args"]
  let name ← field "name"
  return {
    name := ← decodeString name.1
    args := ← decodeOr [] (field "args") fun part => decodeStrings part.1 }

/-- A lookup. -/
def decodeLookup (passage : Passage) (json : Json) : Option Lookup := do
  let field ← json.fields? ["steps", "mode"]
  let steps ← field "steps"
  return {
    steps := ← steps.1.items? fun part => decodeStep part.1
    mode := ← decodeOr .render (field "mode") fun part => decodeMode passage part.1 }

/-- The names of the kinds of targets, in order. -/
def targetNames : List String := ["page", "property", "children"]

/-- A target. The page and the inner markup have no content, or a null. -/
def decodeTarget (passage : Passage) (json : Json) : Option Target :=
  match json.tagged? passage "kind" "name" targetNames with
  | some ("page", none, _) => some .page
  | some ("page", some ⟨.null, _⟩, _) => some .page
  | some ("children", none, _) => some .children
  | some ("children", some ⟨.null, _⟩, _) => some .children
  | some ("property", some name, _) => (decodeString name.1).map .property
  | _ => none

/-- The names of the kinds of expressions, in order. -/
def exprNames : List String := ["literal", "call"]

/-- What a statement writes. -/
def decodeExpr (passage : Passage) (json : Json) : Option Expr :=
  match json.tagged? passage "kind" "value" exprNames with
  | some ("literal", some text, _) => (decodeString text.1).map .literal
  | some ("call", some value, inner) => (decodeLookup inner value.1).map .value
  | _ => none

/-- The names of the operations, in order. -/
def operationNames : List String :=
  ["append", "if", "loop", "with", "beginProps", "initProperty", "createProperty", "initChildren",
    "sealChildren", "renderComponent"]

/-- Where the operation of a statement is written: under its name in an object, where it must not be
repeated, or in front of an array. -/
def operation? : Json → Option Json
  | .object members =>
      match named members "op" with
      | [operation] => some operation.1
      | _ => none
  | .array items => items.head?
  | _ => none

/-- A part of a part. -/
def within {whole : Json} (part : Part whole) (inner : Part part.1) : Part whole :=
  ⟨inner.1, Nat.lt_trans inner.2 part.2⟩

mutual

/-- A statement. All of it is copied before it is read, and must be readable for that. -/
def decodeStatement (passage : Passage) (json : Json) : Option Statement :=
  if json.readable then do
    let operation ← caseName? passage operationNames (← operation? json)
    let field (name : String) (names : List String) : Option (Part json) := do
      (← json.fields? ("op" :: names)) name
    let name (names : List String) : Option String := do decodeString (← field "name" names).1
    match operation with
    | "append" => do
        let names := ["target", "value"]
        let target ← decodeTarget .copied (← field "target" names).1
        let value ← decodeExpr .copied (← field "value" names).1
        return .append target value
    | "if" => do
        let names := ["branches", "otherwise"]
        let branches ← field "branches" names
        let branches ← branches.1.items? fun part => decodeBranch part.1
        match field "otherwise" names with
        | none | some ⟨.null, _⟩ => return .choose branches none
        | some body => do
            let body ← body.1.items? fun part => decodeStatement .copied part.1
            return .choose branches (some body)
    | "loop" => do
        let names := ["over", "body"]
        let subject ← decodeLookup .copied (← field "over" names).1
        let body ← field "body" names
        let body ← body.1.items? fun part => decodeStatement .copied part.1
        return .loop subject body
    | "with" => do
        let names := ["scope", "body"]
        let scope ← decodeLookup .copied (← field "scope" names).1
        let body ← field "body" names
        let body ← body.1.items? fun part => decodeStatement .copied part.1
        return .within scope body
    | "beginProps" => do
        let _ ← json.fields? ["op"]
        return .beginProps
    | "initProperty" => do return .initProperty (← name ["name"])
    | "createProperty" => do return .createProperty (← name ["name"])
    | "initChildren" => do
        let _ ← json.fields? ["op"]
        return .initChildren
    | "sealChildren" => do
        let _ ← json.fields? ["op"]
        return .sealChildren
    | "renderComponent" => do
        let names := ["name", "target"]
        let target ← decodeTarget .copied (← field "target" names).1
        return .renderComponent (← name names) target
    | _ => none
  else none
termination_by sizeOf json
decreasing_by
  all_goals
    first
    | exact Nat.lt_trans part.2 branches.2
    | exact Nat.lt_trans part.2 body.2

/-- A branch of a choice, which is always read from a copy. -/
def decodeBranch (json : Json) : Option Branch := do
  let field ← json.fields? ["condition", "body"]
  let condition ← field "condition"
  let condition ← decodeLookup .copied condition.1
  let body ← field "body"
  let body ← body.1.items? fun part => decodeStatement .copied part.1
  return { condition, body }
termination_by sizeOf json
decreasing_by exact Nat.lt_trans part.2 body.2

end

/-- A list of statements. -/
def decodeStatements (passage : Passage) (json : Json) : Option (List Statement) :=
  json.items? fun part => decodeStatement passage part.1

/-- Inner markup. -/
def decodeChildren (passage : Passage) (json : Json) : Option (List Statement) := do
  let field ← json.fields? ["statements"]
  decodeStatements passage (← field "statements").1

/-- The fields of a branch of an attribute's value, which is an object and no array. -/
def branchFields? (json : Json) : Option (String → Option (Part json)) :=
  match json with
  | .object members => Json.fields? (.object members) ["guard", "body"]
  | _ => none

/-- The names of the kinds of parts of an attribute's value, in order. -/
def fragmentNames : List String := ["literal", "call", "branch", "opener"]

/-- A part of an attribute's value. -/
def decodeFragment (passage : Passage) (json : Json) : Option Fragment :=
  match json.tagged? passage "kind" "value" fragmentNames with
  | some ("literal", some text, _) => (decodeString text.1).map .literal
  | some ("call", some value, inner) => (decodeLookup inner value.1).map .value
  | some ("opener", some kind, inner) => (decodeOpener inner kind.1).map .opener
  | some ("branch", some content, inner) => do
      let field ← branchFields? content.1
      let guard ← decodeOr none (field "guard") fun part =>
        decodeNullable part.1 (decodeLookup inner)
      let body ← field "body"
      let body ← body.1.items? fun part => decodeFragment inner part.1
      return .branch guard body
  | _ => none
termination_by sizeOf json
decreasing_by exact Nat.lt_trans (Nat.lt_trans part.2 body.2) content.2

/-- An attribute. -/
def decodeAttribute (passage : Passage) (json : Json) : Option Attribute := do
  let field ← json.fields? ["name", "value", "line"]
  let name ← field "name"
  return {
    name := ← decodeString name.1
    value := ← decodeOr [] (field "value") fun part =>
      part.1.items? fun part => decodeFragment passage part.1
    line := ← decodeLineField (field "line") }

/-- A tag. -/
def decodeProduction (passage : Passage) (json : Json) : Option Production := do
  let field ← json.fields? ["name", "attributes", "children", "line"]
  let name ← field "name"
  return {
    name := ← decodeString name.1
    attributes := ← decodeOr [] (field "attributes") fun part =>
      part.1.items? fun part => decodeAttribute passage part.1
    children := ← decodeOr none (field "children") fun part =>
      decodeNullable part.1 (decodeChildren passage)
    line := ← decodeLineField (field "line") }

/-- The tags of a file, which holds a list of tags or one tag. -/
def decodeProductions (json : Json) : Option (List Production) :=
  if json.readable then
    json.items? (fun part => decodeProduction .shared part.1) <|>
      (decodeProduction .shared json).map fun production => [production]
  else none

/-- A configuration. -/
def decodeConfig (json : Json) : Option Config := do
  let field ← json.fields? ["componentPaths"]
  let paths ← decodeOr ({} : Config).componentPaths (field "componentPaths") fun part =>
    decodeStrings part.1
  return { componentPaths := paths }

end ComponentTemplates
