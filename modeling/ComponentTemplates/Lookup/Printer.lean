/-
Module: ComponentTemplates.Lookup.Printer
Purpose: The text of a lookup in generated code. A step is its name, quoted where it is no identifier,
  with its arguments as literals in parentheses if it has any; steps are joined by dots.
Main exports: Lookup.Step.source, Lookup.pathSource, Lookup.source, Lookup.conditionSource
-/
import ComponentTemplates.Lookup.Basic
import ComponentTemplates.Text.Quoted

namespace ComponentTemplates.Lookup

/-- The text of one step. -/
def Step.source (step : Step) : String :=
  let name := Text.Quoted.name step.name
  if step.args.isEmpty then name
  else name ++ "(" ++ ", ".intercalate (step.args.map Text.Quoted.literal) ++ ")"

/-- The text of a chain of steps. -/
def pathSource (steps : List Step) : String :=
  ".".intercalate (steps.map Step.source)

/-- How the scope is asked for a lookup in the given mode. -/
def Mode.accessor : Mode → String
  | .render => "val"
  | .object => "obj"

/-- The text of a lookup that yields a value. -/
def source (lookup : Lookup) : String :=
  "scope." ++ lookup.mode.accessor ++ "(" ++ pathSource lookup.steps ++ ")"

/-- The text of a lookup that is asked whether it has a value. Its mode does not show. -/
def conditionSource (lookup : Lookup) : String :=
  "scope.has(" ++ pathSource lookup.steps ++ ")"

end ComponentTemplates.Lookup
