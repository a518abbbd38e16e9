/-
Module: ComponentTemplates.Layout
Purpose: Indented text under construction. A layout is its finished lines, the line being written and
  the level that new lines start at. An empty line follows the level; once text stands on it, its
  indentation is settled.
Main exports: Layout, Layout.start, Layout.print, Layout.println, Layout.indent, Layout.dedent,
  Layout.source
-/

namespace ComponentTemplates

/-- A line of text with the number of levels that it is indented by. -/
structure Layout.Line where
  indent : Nat
  text : String := ""
deriving DecidableEq, Repr, Inhabited

/-- Text under construction. The finished lines are kept with the latest first. -/
structure Layout where
  finished : List Layout.Line
  current : Layout.Line
  level : Nat
deriving DecidableEq, Repr, Inhabited

namespace Layout

/-- A layout with nothing on it yet, at the given level. -/
def start (level : Nat := 0) : Layout :=
  { finished := [], current := { indent := level }, level }

/-- Nothing has been printed on the current line. -/
def lineIsEmpty (layout : Layout) : Bool :=
  layout.current.text.isEmpty

/-- Adds text to the current line. -/
def print (layout : Layout) (text : String) : Layout :=
  { layout with current := { layout.current with text := layout.current.text ++ text } }

/-- Adds text to the current line and finishes it. -/
def println (layout : Layout) (text : String) : Layout :=
  let printed := layout.print text
  { printed with
    finished := printed.current :: printed.finished
    current := { indent := printed.level } }

/-- Moves to another level, taking an empty current line along. -/
def setLevel (layout : Layout) (level : Nat) : Layout :=
  { layout with
    level
    current := if layout.lineIsEmpty then { layout.current with indent := level }
      else layout.current }

/-- One level deeper. -/
def indent (layout : Layout) : Layout :=
  layout.setLevel (layout.level + 1)

/-- One level back, down to level zero. -/
def dedent (layout : Layout) : Layout :=
  layout.setLevel (layout.level - 1)

/-- The text of a line: two blanks for each level, unless the line is empty. -/
def Line.source (line : Line) : String :=
  if line.text.isEmpty then ""
  else "".pushn ' ' (2 * line.indent) ++ line.text

/-- The lines in order. A last line that is still empty does not count. -/
def lines (layout : Layout) : List Line :=
  let written := if layout.lineIsEmpty then layout.finished else layout.current :: layout.finished
  written.reverse

/-- The text laid out so far. -/
def source (layout : Layout) : String :=
  "\n".intercalate (layout.lines.map Line.source)

end Layout

end ComponentTemplates
