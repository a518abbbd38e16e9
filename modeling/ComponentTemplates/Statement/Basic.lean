/-
Module: ComponentTemplates.Statement.Basic
Purpose: The statements that a template or a component tag is compiled to. Statements write to the page
  or build a map of component properties, and a component is rendered with the map that was begun
  last. `retarget` sends what was meant for the page somewhere else.
Main exports: Target, Expr, Statement, Branch, Statement.retarget, Statement.retargetAll,
  childrenProperty
-/
import ComponentTemplates.Lookup.Basic

namespace ComponentTemplates

/-- Where a statement writes to. -/
inductive Target where
  /-- The page being rendered. -/
  | page
  /-- The list of parts that a property is built from. -/
  | property (name : String)
  /-- The inner markup of the component whose properties are being built. -/
  | children
deriving DecidableEq, Repr, Inhabited

/-- What a statement writes. -/
inductive Expr where
  /-- Text of the template, taken as it is by the page and by inner markup. -/
  | literal (text : String)
  /-- What a lookup yields. -/
  | value (lookup : Lookup)
deriving DecidableEq, Repr, Inhabited

mutual

/-- One instruction of a compiled template. -/
inductive Statement where
  | append (target : Target) (value : Expr)
  /-- Runs the first branch whose condition has a value, else `otherwise`. -/
  | choose (branches : List Branch) (otherwise : Option (List Statement))
  /-- Runs the body once for each item of a value, with the item in scope. -/
  | loop (subject : Lookup) (body : List Statement)
  /-- Runs the body with a value in scope. -/
  | within (scope : Lookup) (body : List Statement)
  /-- Begins an empty map of properties. -/
  | beginProps
  /-- Begins a property with no parts. -/
  | initProperty (name : String)
  /-- Makes a property's value from its parts. -/
  | createProperty (name : String)
  /-- Begins the inner markup. -/
  | initChildren
  /-- Makes the inner markup the value of the property `children`. -/
  | sealChildren
  /-- Ends the map of properties that was begun last, renders a component with it and writes the
  result. -/
  | renderComponent (name : String) (target : Target)

/-- A guarded body. -/
structure Branch where
  condition : Lookup
  body : List Statement

end

instance : Inhabited Statement := ⟨.beginProps⟩

/-- The name of the property that holds inner markup. -/
def childrenProperty : String := "children"

/-- A write to the page goes to `target`, any other write stays. -/
def Target.redirect (target : Target) : Target → Target
  | .page => target
  | other => other

mutual

/-- Sends every write to the page, at any depth, to `target`. -/
def Statement.retarget (target : Target) : Statement → Statement
  | .append old value => .append (target.redirect old) value
  | .choose branches none => .choose (retargetBranches target branches) none
  | .choose branches (some body) =>
      .choose (retargetBranches target branches) (some (retargetAll target body))
  | .loop subject body => .loop subject (retargetAll target body)
  | .within scope body => .within scope (retargetAll target body)
  | .beginProps => .beginProps
  | .initProperty name => .initProperty name
  | .createProperty name => .createProperty name
  | .initChildren => .initChildren
  | .sealChildren => .sealChildren
  | .renderComponent name old => .renderComponent name (target.redirect old)
termination_by structural statement => statement

/-- `retarget` on each statement of a body. -/
def Statement.retargetAll (target : Target) : List Statement → List Statement
  | [] => []
  | statement :: rest => statement.retarget target :: retargetAll target rest
termination_by structural body => body

/-- `retarget` on the body of each branch. -/
def Statement.retargetBranches (target : Target) : List Branch → List Branch
  | [] => []
  | ⟨condition, body⟩ :: rest =>
      ⟨condition, retargetAll target body⟩ :: retargetBranches target rest
termination_by structural branches => branches

end

namespace Statement

/-- A body is redirected statement by statement. -/
theorem retargetAll_eq_map (target : Target) (body : List Statement) :
    retargetAll target body = body.map (retarget target) := by
  induction body with
  | nil => rfl
  | cons statement rest ih => simp [retargetAll, ih]

/-- Retargeting a program is retargeting its parts. -/
theorem retargetAll_append (target : Target) (first second : List Statement) :
    retargetAll target (first ++ second) =
      retargetAll target first ++ retargetAll target second := by
  simp [retargetAll_eq_map]

end Statement

end ComponentTemplates
