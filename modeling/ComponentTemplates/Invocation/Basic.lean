/-
Module: ComponentTemplates.Invocation.Basic
Purpose: Component tags compiled. The code of a tag begins a map of properties, builds one property for
  each name, adds the inner markup as the property `children`, and renders the component to the page.
  A repeated attribute keeps its first place and its last value.
Main exports: Invocation, Production.compile, compileAll
-/
import ComponentTemplates.Bindings
import ComponentTemplates.Invocation.Property
import ComponentTemplates.Statement.Printer

namespace ComponentTemplates

/-- The code of one tag. -/
structure Invocation where
  component : String
  statements : List Statement
deriving Inhabited

/-- The generated code as text. -/
def Invocation.toSource (invocation : Invocation) : String :=
  Statement.toSource invocation.statements

/-- The statements that make inner markup the property `children`. What it writes to the page goes
there instead. -/
def compileChildren (statements : List Statement) : List Statement :=
  .initChildren :: Statement.retargetAll .children statements ++ [.sealChildren]

namespace Production

/-- The statements of each property that the attributes set, in order. -/
def compileAttributes (component : String) (attributes : List Attribute) :
    Except CompileError (Bindings (List Statement)) :=
  attributes.foldlM (fun properties given => do
    let appends ← assembleProperty component given.property given
    return Bindings.insert properties given.property (normalizeProperty given.property appends)) []

/-- Adds the inner markup to the properties, unless there is none. -/
def addChildren (production : Production) (properties : Bindings (List Statement)) :
    Except CompileError (Bindings (List Statement)) :=
  match production.children with
  | none | some [] => .ok properties
  | some (statement :: rest) =>
      if Bindings.contains properties childrenProperty then
        .error (.childrenCollision production.name production.line)
      else
        .ok (Bindings.insert properties childrenProperty (compileChildren (statement :: rest)))

/-- Compiles a tag. -/
def compile (production : Production) : Except CompileError Invocation := do
  let properties ← compileAttributes production.name production.attributes
  let properties ← production.addChildren properties
  return {
    component := production.name
    statements := .beginProps :: properties.flatMap (·.2) ++
      [.renderComponent production.name .page] }

end Production

/-- Compiles tags, each on its own. -/
def compileAll (productions : List Production) : List (Except CompileError Invocation) :=
  productions.map Production.compile

end ComponentTemplates
