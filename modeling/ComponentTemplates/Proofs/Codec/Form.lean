/-
Module: ComponentTemplates.Proofs.Codec.Form
Purpose: What the readers of JSON expect at each place of a value: the form that stands there, and how the
  reader comes by it. A form that holds fields says which fields it has, once its case is known;
  `Place.record?` takes the fields out of a value, and `Form.build` makes of them what the form stands for;
  that depends on the case and on the fields of the case alone (`Form.build_eq`).
Main exports: Form, Form.decode, Field, Form.fields, Place, Place.record?, Form.build, Form.build_eq
-/
import ComponentTemplates.Codec.Decode
import ComponentTemplates.Proofs.Codec.Members

namespace ComponentTemplates

open Json

/-! ## Forms -/

/-- What is seen of a value without looking into it. -/
inductive Json.Glance where
  | null
  | empty
  | full
deriving DecidableEq, Repr

/-- Null, an object without members, or anything else. -/
def Json.glance : Json → Glance
  | .null => .null
  | .object [] => .empty
  | _ => .full

/-- What is expected at some place of a value. -/
inductive Form where
  /-- Something that no reader looks into. -/
  | other
  /-- A null. -/
  | nothing
  | text
  | line
  | mode
  | opener
  /-- The name of one of some cases, either as it is written or like a case without content. -/
  | tag (alone : Bool) (names : List String)
  | list (item : Form)
  | step
  | lookup
  | target
  | expr
  | statement
  | branch
  | children
  /-- What a branch of an attribute's value holds. -/
  | guarded
  | fragment
  /-- An attribute of a tag. -/
  | given
  | production
  | config
deriving DecidableEq, Repr

namespace Form

/-- What a value of the form is read as. -/
abbrev Value : Form → Type
  | .other => Glance
  | .nothing => Unit
  | .text => String
  | .line => Nat
  | .mode => Lookup.Mode
  | .opener => Opener
  | .tag _ _ => String
  | .list item => List item.Value
  | .step => Lookup.Step
  | .lookup => Lookup
  | .target => Target
  | .expr => Expr
  | .statement => Statement
  | .branch => Branch
  | .children => List Statement
  | .guarded => Option Lookup × List Fragment
  | .fragment => Fragment
  | .given => Attribute
  | .production => Production
  | .config => Config

end Form

/-- Reads what a branch of an attribute's value holds. -/
def decodeGuarded (passage : Passage) (json : Json) : Option (Option Lookup × List Fragment) := do
  let field ← branchFields? json
  let guard ← decodeOr none (field "guard") fun part =>
    decodeNullable part.1 (decodeLookup passage)
  let body ← field "body"
  let body ← body.1.items? fun part => decodeFragment passage part.1
  return (guard, body)

/-- Reads a value of the form. -/
def Form.decode : (form : Form) → Passage → Json → Option form.Value
  | .other, _, json => some json.glance
  | .nothing, _, json => if json.glance = .null then some () else none
  | .text, _, json => decodeString json
  | .line, _, json => decodeLine json
  | .mode, passage, json => decodeMode passage json
  | .opener, passage, json => decodeOpener passage json
  | .tag true names, passage, json => (caseName? passage names json).filter names.contains
  | .tag false names, passage, json => (unitCase? passage json).filter names.contains
  | .list item, passage, json => json.items? fun part => item.decode passage part.1
  | .step, _, json => decodeStep json
  | .lookup, passage, json => decodeLookup passage json
  | .target, passage, json => decodeTarget passage json
  | .expr, passage, json => decodeExpr passage json
  | .statement, passage, json => decodeStatement passage json
  | .branch, _, json => decodeBranch json
  | .children, passage, json => decodeChildren passage json
  | .guarded, passage, json => decodeGuarded passage json
  | .fragment, passage, json => decodeFragment passage json
  | .given, passage, json => decodeAttribute passage json
  | .production, passage, json => decodeProduction passage json
  | .config, _, json => decodeConfig json

/-! ## Fields -/

/-- Whether a field may be missing. -/
inductive Presence (α : Type) where
  | required
  /-- A missing field stands for the value. -/
  | defaulted (value : α)
  /-- The field may be missing or null. -/
  | optional

namespace Presence

/-- What a field is read as. -/
abbrev Value {α : Type} : Presence α → Type
  | .required => α
  | .defaulted _ => α
  | .optional => Option α

/-- Reads a field, given how the value in it is read. -/
def read {α : Type} (decode : Json → Option α) (part : Option Json) :
    (presence : Presence α) → Option presence.Value
  | .required => part.bind decode
  | .defaulted value => decodeOr value part decode
  | .optional => decodeOr none part fun json => decodeNullable json decode

end Presence

/-- A field of a form. -/
structure Field where
  name : String
  form : Form
  presence : Presence form.Value

/-- Reads a field. -/
def Field.read (field : Field) (passage : Passage) (part : Option Json) :
    Option field.presence.Value :=
  field.presence.read (field.form.decode passage) part

/-- How the case of a form is told: under which name, whether by its name alone, and which there are. -/
structure Tag where
  name : String
  alone : Bool
  names : List String

namespace Form

/-- How the case is told, in a form that has several. -/
def tag? : Form → Option Tag
  | .target => some ⟨"kind", false, targetNames⟩
  | .expr => some ⟨"kind", false, exprNames⟩
  | .fragment => some ⟨"kind", false, fragmentNames⟩
  | .statement => some ⟨"op", true, operationNames⟩
  | _ => none

/-- Where the content of a case is, in a form that keeps it apart. -/
def content? : Form → Option String
  | .target => some "name"
  | .expr => some "value"
  | .fragment => some "value"
  | _ => none

/-- The content of a target. -/
def targetFields : Option String → List Field
  | some "page" => [⟨"name", .nothing, .defaulted ()⟩]
  | some "property" => [⟨"name", .text, .required⟩]
  | some "children" => [⟨"name", .nothing, .defaulted ()⟩]
  | _ => []

/-- The content of what a statement writes. -/
def exprFields : Option String → List Field
  | some "literal" => [⟨"value", .text, .required⟩]
  | some "call" => [⟨"value", .lookup, .required⟩]
  | _ => []

/-- The content of a part of an attribute's value. -/
def fragmentFields : Option String → List Field
  | some "literal" => [⟨"value", .text, .required⟩]
  | some "call" => [⟨"value", .lookup, .required⟩]
  | some "branch" => [⟨"value", .guarded, .required⟩]
  | some "opener" => [⟨"value", .opener, .required⟩]
  | _ => []

/-- The fields of an operation, in order. -/
def operationFields : Option String → List Field
  | some "append" => [⟨"target", .target, .required⟩, ⟨"value", .expr, .required⟩]
  | some "if" =>
      [⟨"branches", .list .branch, .required⟩, ⟨"otherwise", .list .statement, .optional⟩]
  | some "loop" => [⟨"over", .lookup, .required⟩, ⟨"body", .list .statement, .required⟩]
  | some "with" => [⟨"scope", .lookup, .required⟩, ⟨"body", .list .statement, .required⟩]
  | some "initProperty" => [⟨"name", .text, .required⟩]
  | some "createProperty" => [⟨"name", .text, .required⟩]
  | some "beginProps" => []
  | some "initChildren" => []
  | some "sealChildren" => []
  | some "renderComponent" => [⟨"name", .text, .required⟩, ⟨"target", .target, .required⟩]
  | _ => []

/-- The fields of a form besides its tag, in order; they depend on the case, if there are several. -/
def fields : Form → Option String → List Field
  | .step, _ => [⟨"name", .text, .required⟩, ⟨"args", .list .text, .defaulted []⟩]
  | .lookup, _ => [⟨"steps", .list .step, .required⟩, ⟨"mode", .mode, .defaulted .render⟩]
  | .target, kind => targetFields kind
  | .expr, kind => exprFields kind
  | .statement, kind => operationFields kind
  | .branch, _ => [⟨"condition", .lookup, .required⟩, ⟨"body", .list .statement, .required⟩]
  | .children, _ => [⟨"statements", .list .statement, .required⟩]
  | .guarded, _ => [⟨"guard", .lookup, .optional⟩, ⟨"body", .list .fragment, .required⟩]
  | .fragment, kind => fragmentFields kind
  | .given, _ =>
      [⟨"name", .text, .required⟩, ⟨"value", .list .fragment, .defaulted []⟩,
        ⟨"line", .line, .optional⟩]
  | .production, _ =>
      [⟨"name", .text, .required⟩, ⟨"attributes", .list .given, .defaulted []⟩,
        ⟨"children", .children, .optional⟩, ⟨"line", .line, .optional⟩]
  | .config, _ =>
      [⟨"componentPaths", .list .text, .defaulted ({} : Config).componentPaths⟩]
  | _, _ => []

/-- The form stands for a record or for one of several cases, and so has fields. -/
def isRecord : Form → Bool
  | .other | .nothing | .text | .line | .mode | .opener | .tag _ _ | .list _ => false
  | .step | .lookup | .target | .expr | .statement | .branch | .children | .guarded | .fragment
  | .given | .production | .config => true

/-- The form stands for a record that has always the same fields. -/
def isPlain : Form → Bool
  | .step | .lookup | .branch | .children | .guarded | .given | .production | .config => true
  | _ => false

/-- Whatever the form holds is read from a copy. -/
def isCopied : Form → Bool
  | .statement | .branch => true
  | _ => false

/-- The names that stand for the items of an array in place of a record. -/
def names (form : Form) (kind : Option String) : List String :=
  (form.tag?.map Tag.name).toList ++ (form.fields kind).map Field.name

end Form

/-! ## Places -/

/-- What is expected at a place, and how the reader comes by what stands there. -/
structure Place where
  form : Form
  passage : Passage
deriving DecidableEq, Repr

/-- Reads what stands at the place. -/
def Place.decode (place : Place) (json : Json) : Option place.form.Value :=
  place.form.decode place.passage json

/-- What a reader has in hand of a value that has fields: which case it is, how the fields are come by, and
the fields themselves. -/
structure Record where
  kind : Option String
  passage : Passage
  part : String → Option Json

/-- Reads one of the fields. -/
def Record.read (record : Record) (field : Field) : Option field.presence.Value :=
  field.read record.passage (record.part field.name)

namespace Place

variable (place : Place)

/-- The case that an object tells; `some none` where there are no cases to tell apart. -/
def kind? (members : List (String × Json)) : Option (Option String) :=
  match place.form.tag? with
  | none => some none
  | some tag =>
      ((part? members tag.name).bind ((Form.tag tag.alone tag.names).decode place.passage)).map some

/-- The content comes before its tag. -/
def contentFirst (members : List (String × Json)) : Bool :=
  match place.form.content? with
  | some content => !precedes members "kind" content
  | none => false

/-- How the fields are come by, unless they stand in front of their tag. -/
def held : Passage :=
  if place.form.isCopied then .copied else place.passage

/-- How the fields of an object are come by. -/
def inner (members : List (String × Json)) : Passage :=
  if place.contentFirst members then .copied else place.held

/-- What has to be copied can be read. -/
def copies (members : List (String × Json)) : Bool :=
  match place.form.content? with
  | some content => precedes members "kind" content || (part? members content).all readable
  | none => place.form ≠ .statement || (Json.object members).readable

/-- The case that an array tells. -/
def kindOf? (items : List Json) : Option (Option String) :=
  match place.form.tag? with
  | none => some none
  | some tag => (items.head?.bind ((Form.tag true tag.names).decode place.passage)).map some

/-- An array may stand for a record with that many names. -/
def admits (items : List Json) (count : Nat) : Bool :=
  match place.form with
  | .guarded => false
  | .target | .expr | .fragment => items.length = count
  | .statement => (Json.array items).readable && items.length ≤ count
  | _ => items.length ≤ count

/-- Takes a value that has fields apart. -/
def record? : Json → Option Record
  | .object members => do
      let kind ← place.kind? members
      let fields := place.form.fields kind
      if place.copies members && fields.all (fun field => (only? members field.name).isSome) then
        some { kind, passage := place.inner members, part := part? members }
      else none
  | .array items => do
      let kind ← place.kindOf? items
      let names := place.form.names kind
      if place.admits items names.length then
        some {
          kind
          passage := place.held
          part := fun name => items[names.idxOf name]? }
      else none
  | _ => none

end Place

/-- Makes of the fields what the form stands for. -/
def Form.build : (form : Form) → Record → Option form.Value
  | .step, record => do
      let name ← record.read ⟨"name", .text, .required⟩
      let args ← record.read ⟨"args", .list .text, .defaulted []⟩
      return { name, args }
  | .lookup, record => do
      let steps ← record.read ⟨"steps", .list .step, .required⟩
      let mode ← record.read ⟨"mode", .mode, .defaulted .render⟩
      return { steps, mode }
  | .target, record =>
      match record.kind with
      | some "page" => (record.read ⟨"name", .nothing, .defaulted ()⟩).map fun _ => .page
      | some "property" => (record.read ⟨"name", .text, .required⟩).map .property
      | some "children" => (record.read ⟨"name", .nothing, .defaulted ()⟩).map fun _ => .children
      | _ => none
  | .expr, record =>
      match record.kind with
      | some "literal" => (record.read ⟨"value", .text, .required⟩).map .literal
      | some "call" => (record.read ⟨"value", .lookup, .required⟩).map .value
      | _ => none
  | .statement, record =>
      match record.kind with
      | some "append" => do
          let target ← record.read ⟨"target", .target, .required⟩
          let value ← record.read ⟨"value", .expr, .required⟩
          return .append target value
      | some "if" => do
          let branches ← record.read ⟨"branches", .list .branch, .required⟩
          let otherwise ← record.read ⟨"otherwise", .list .statement, .optional⟩
          return .choose branches otherwise
      | some "loop" => do
          let subject ← record.read ⟨"over", .lookup, .required⟩
          let body ← record.read ⟨"body", .list .statement, .required⟩
          return .loop subject body
      | some "with" => do
          let scope ← record.read ⟨"scope", .lookup, .required⟩
          let body ← record.read ⟨"body", .list .statement, .required⟩
          return .within scope body
      | some "beginProps" => some .beginProps
      | some "initProperty" => do
          let name ← record.read ⟨"name", .text, .required⟩
          return .initProperty name
      | some "createProperty" => do
          let name ← record.read ⟨"name", .text, .required⟩
          return .createProperty name
      | some "initChildren" => some .initChildren
      | some "sealChildren" => some .sealChildren
      | some "renderComponent" => do
          let target ← record.read ⟨"target", .target, .required⟩
          let name ← record.read ⟨"name", .text, .required⟩
          return .renderComponent name target
      | _ => none
  | .branch, record => do
      let condition ← record.read ⟨"condition", .lookup, .required⟩
      let body ← record.read ⟨"body", .list .statement, .required⟩
      return { condition, body }
  | .children, record => record.read ⟨"statements", .list .statement, .required⟩
  | .guarded, record => do
      let guard ← record.read ⟨"guard", .lookup, .optional⟩
      let body ← record.read ⟨"body", .list .fragment, .required⟩
      return (guard, body)
  | .fragment, record =>
      match record.kind with
      | some "literal" => (record.read ⟨"value", .text, .required⟩).map .literal
      | some "call" => (record.read ⟨"value", .lookup, .required⟩).map .value
      | some "branch" =>
          (record.read ⟨"value", .guarded, .required⟩).map fun (guard, body) => .branch guard body
      | some "opener" => (record.read ⟨"value", .opener, .required⟩).map .opener
      | _ => none
  | .given, record => do
      let name ← record.read ⟨"name", .text, .required⟩
      let value ← record.read ⟨"value", .list .fragment, .defaulted []⟩
      let line ← record.read ⟨"line", .line, .optional⟩
      return { name, value, line }
  | .production, record => do
      let name ← record.read ⟨"name", .text, .required⟩
      let attributes ← record.read ⟨"attributes", .list .given, .defaulted []⟩
      let children ← record.read ⟨"children", .children, .optional⟩
      let line ← record.read ⟨"line", .line, .optional⟩
      return { name, attributes, children, line }
  | .config, record => do
      let componentPaths ←
        record.read ⟨"componentPaths", .list .text, .defaulted ({} : Config).componentPaths⟩
      return { componentPaths }
  | _, _ => none

/-- What is made of a record depends on its case and on what the fields of that case are read as. -/
theorem Form.build_eq {form : Form} {first second : Record} (hkind : first.kind = second.kind)
    (hreads : ∀ field ∈ form.fields first.kind, first.read field = second.read field) :
    form.build first = form.build second := by
  cases form with
  | step | lookup | branch | children | guarded | given | production | config =>
      simp only [fields, List.forall_mem_cons] at hreads
      simp only [build, hreads]
  | target | expr | fragment | statement =>
      simp only [build, ← hkind]
      split
      all_goals
        rename_i hcase
        first
        | rfl
        | rw [hcase] at hreads
          simp only [fields, targetFields, exprFields, fragmentFields, operationFields,
            List.forall_mem_cons] at hreads
          simp only [hreads]
  | other | nothing | text | line | mode | opener | tag | list => rfl

end ComponentTemplates
