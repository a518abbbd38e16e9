/-
Module: ComponentTemplates.Statement.Printer
Purpose: The generated code of a statement list. Each simple statement is one line, a component
  rendering two; blocks are braced and their bodies indented. The code depends on the statements
  alone, so the same program is always printed alike.
Main exports: Target.source, Expr.source, Statement.emit, Statement.emitAll, Statement.toSource
-/
import ComponentTemplates.Layout
import ComponentTemplates.Lookup.Printer
import ComponentTemplates.Statement.Basic

namespace ComponentTemplates

/-- The place of a property in the map being built. -/
def propertySlot (name : String) : String :=
  "props[" ++ Text.Quoted.literal name ++ "]"

/-- The place that a target stands for. -/
def Target.source : Target → String
  | .page => "page"
  | .property name => propertySlot name
  | .children => propertySlot childrenProperty

/-- How text or parts are added to a target: parts to a list, text to the end of a text. -/
def Target.appendOperator : Target → String
  | .property _ => "[] ="
  | .page | .children => " .="

/-- The text of an expression. -/
def Expr.source : Expr → String
  | .literal text => Text.Quoted.literal text
  | .value lookup => lookup.source

namespace Statement

/-- The line that opens a block. -/
def opening (keyword : String) (subject : String) : String :=
  keyword ++ " (" ++ subject ++ ") \x7b"

/-- The line that closes a block. -/
def closing : String := "\x7d"

/-- The line between a branch and the next. -/
def elseIf : String := closing ++ " else if"

/-- The line between the last branch and the rest. -/
def elseOpening : String := closing ++ " else \x7b"

mutual

/-- Prints a statement. -/
def emit (statement : Statement) (layout : Layout) : Layout :=
  match statement with
  | .append target value =>
      layout.println (target.source ++ target.appendOperator ++ " " ++ value.source ++ ";")
  | .choose branches none => (emitBranches "if" branches layout).dedent.println closing
  | .choose branches (some body) =>
      let opened := ((emitBranches "if" branches layout).dedent.println elseOpening).indent
      (emitAll body opened).dedent.println closing
  | .loop subject body =>
      (emitAll body (layout.println (opening "loop" subject.source)).indent).dedent.println closing
  | .within scope body =>
      (emitAll body (layout.println (opening "with" scope.source)).indent).dedent.println closing
  | .beginProps => layout.println "props = [];"
  | .initProperty name => layout.println (propertySlot name ++ " = [];")
  | .createProperty name =>
      layout.println (propertySlot name ++ " = component.create_property("
        ++ Text.Quoted.literal name ++ ", " ++ propertySlot name ++ ");")
  | .initChildren => layout.println (propertySlot childrenProperty ++ " = '';")
  | .sealChildren =>
      layout.println (propertySlot childrenProperty ++ " = html_fragment("
        ++ propertySlot childrenProperty ++ ");")
  | .renderComponent name target =>
      (layout.println (target.source ++ " .= component.render(" ++ Text.Quoted.literal name
        ++ ", props, scope);")).println "unset(props);"
termination_by structural statement

/-- Prints statements one after another. -/
def emitAll (statements : List Statement) (layout : Layout) : Layout :=
  match statements with
  | [] => layout
  | statement :: rest => emitAll rest (emit statement layout)
termination_by structural statements

/-- Prints the branches of a choice, the first one under the given keyword. Each branch but the last
is closed by the line that opens the next. -/
def emitBranches (keyword : String) (branches : List Branch) (layout : Layout) : Layout :=
  match branches with
  | [] => layout
  | [⟨condition, body⟩] =>
      emitAll body (layout.println (opening keyword condition.conditionSource)).indent
  | ⟨condition, body⟩ :: next :: rest =>
      let inner := emitAll body (layout.println (opening keyword condition.conditionSource)).indent
      emitBranches elseIf (next :: rest) inner.dedent
termination_by structural branches

end

/-- The generated code of a program. -/
def toSource (statements : List Statement) : String :=
  (emitAll statements (Layout.start 0)).source

end Statement

end ComponentTemplates
