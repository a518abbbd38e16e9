/-
Module: ComponentTemplates.Lookup.Basic
Purpose: Lookups, the expressions that read a value out of the data at hand. A lookup is a chain of
  steps, each a name with string arguments, and a mode that tells a page from a value.
Main exports: Lookup, Lookup.Step, Lookup.Mode, Lookup.ofPath, Lookup.call
-/
import ComponentTemplates.Text.Split

namespace ComponentTemplates

namespace Lookup

/-- What a lookup is wanted for. -/
inductive Mode where
  /-- The markup of the value, for a page. -/
  | render
  /-- The value itself. -/
  | object
deriving DecidableEq, Repr, Inhabited

/-- One step of a lookup: a field, or a call if there are arguments. -/
structure Step where
  name : String
  args : List String := []
deriving DecidableEq, Repr, Inhabited

end Lookup

/-- A chain of steps, read from left to right. -/
structure Lookup where
  steps : List Lookup.Step
  mode : Lookup.Mode := .render
deriving DecidableEq, Repr, Inhabited

namespace Lookup

/-- The lookup of a dotted path of plain fields. Dollar signs in front and empty names are left out. -/
def ofPath (path : String) (mode : Mode := .render) : Lookup :=
  let names := Text.pieces '.' (path.toList.dropWhile (· == '$'))
  { steps := (names.filter fun name => !name.isEmpty).map fun name => { name := String.ofList name }
    mode }

/-- The same steps in another mode. -/
def withMode (lookup : Lookup) (mode : Mode) : Lookup :=
  { lookup with mode }

/-- The lookup that goes on with a call. -/
def call (lookup : Lookup) (name : String) (args : List String) : Lookup :=
  { lookup with steps := lookup.steps ++ [{ name, args }] }

end Lookup

end ComponentTemplates
