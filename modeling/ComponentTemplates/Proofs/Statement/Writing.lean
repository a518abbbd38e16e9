/-
Module: ComponentTemplates.Proofs.Statement.Writing
Purpose: Printing as the writing of lines one after another. A line that closes a block stands a level
  back, what follows a line that opens one stands a level deeper, and nothing else moves the level. So
  a program is printed by writing its lines (`emitAll_eq_write`), and its code is its lines, each at
  its level (`toSource_eq`).
Main exports: CodeLine.closes, CodeLine.opens, CodeLine.levelAfter, CodeLine.placed, Layout.write,
  emitAll_eq_write, toSource_eq
-/
import ComponentTemplates.Proofs.Statement.Lines

namespace ComponentTemplates

namespace CodeLine

/-- The line begins with the end of a block. -/
def closes : CodeLine → Bool
  | .nextBranch _ | .otherwise | .closing => true
  | _ => false

/-- The line ends with the beginning of a block. -/
def opens : CodeLine → Bool
  | .branch _ | .nextBranch _ | .otherwise | .loop _ | .within _ => true
  | _ => false

/-- The level that a line stands at, behind lines that lead to the given one. There is no level below
zero. -/
def levelAt (level : Nat) (line : CodeLine) : Nat :=
  level - line.closes.toNat

/-- The level that a line leads to. -/
def levelAfter (level : Nat) (line : CodeLine) : Nat :=
  line.levelAt level + line.opens.toNat

/-- The lines, each at its level, the first one behind lines that lead to the given level. -/
def placed (level : Nat) : List CodeLine → List Layout.Line
  | [] => []
  | line :: rest =>
      { indent := line.levelAt level, text := line.source } :: placed (line.levelAfter level) rest

/-- Lines in a row are placed in a row. -/
theorem placed_append (level : Nat) (first second : List CodeLine) :
    placed level (first ++ second) =
      placed level first ++ placed (first.foldl levelAfter level) second := by
  induction first generalizing level with
  | nil => rfl
  | cons line rest ih => rw [List.cons_append, placed, ih, placed, List.cons_append, List.foldl_cons]

end CodeLine

/-! ## What a line does to a layout -/

namespace Layout

/-- Writes a line at its level, and goes on at the level that it leads to. -/
def writeLine (layout : Layout) (line : CodeLine) : Layout :=
  let placed := if line.closes then layout.dedent else layout
  let written := placed.println line.source
  if line.opens then written.indent else written

/-- Writes lines one after another. -/
def write (layout : Layout) (lines : List CodeLine) : Layout :=
  lines.foldl writeLine layout

/-- Nothing stands on the current line, which is indented as the level says. -/
def Fresh (layout : Layout) : Prop :=
  layout.current = { indent := layout.level }

variable (layout : Layout) (line : CodeLine)

theorem write_cons (rest : List CodeLine) :
    layout.write (line :: rest) = (layout.writeLine line).write rest := rfl

theorem write_append (first second : List CodeLine) :
    layout.write (first ++ second) = (layout.write first).write second :=
  List.foldl_append

/-- A line that neither ends nor begins a block is printed as it is. -/
theorem writeLine_simple (hcloses : line.closes = false) (hopens : line.opens = false) :
    layout.writeLine line = layout.println line.source := by
  simp [writeLine, hcloses, hopens]

/-- Behind a line the level is the one that it leads to. -/
theorem level_writeLine : (layout.writeLine line).level = line.levelAfter layout.level := by
  unfold writeLine CodeLine.levelAfter CodeLine.levelAt
  cases line.closes <;> cases line.opens <;> rfl

/-- Behind a line there is always a fresh one. -/
theorem fresh_writeLine : (layout.writeLine line).Fresh := by
  unfold writeLine Fresh
  cases line.opens <;> rfl

variable {layout}

theorem Fresh.lineIsEmpty (h : layout.Fresh) : layout.lineIsEmpty = true := by
  rw [Layout.lineIsEmpty, h]
  rfl

theorem Fresh.dedent (h : layout.Fresh) : layout.dedent.Fresh := by
  unfold Fresh Layout.dedent setLevel at *
  rw [if_pos (Fresh.lineIsEmpty h), h]

/-- On a fresh line, the text stands as the level says. -/
theorem Fresh.finished_println (h : layout.Fresh) (text : String) :
    (layout.println text).finished = { indent := layout.level, text } :: layout.finished := by
  unfold Layout.println print
  rw [h]
  simp

/-- On a fresh line, a line is finished at its level. -/
theorem Fresh.finished_writeLine (h : layout.Fresh) :
    (layout.writeLine line).finished =
      { indent := line.levelAt layout.level, text := line.source } :: layout.finished := by
  have hwritten : (layout.writeLine line).finished =
      ((if line.closes then layout.dedent else layout).println line.source).finished := by
    unfold writeLine
    cases line.opens <;> rfl
  rw [hwritten, CodeLine.levelAt]
  cases line.closes with
  | false => exact h.finished_println line.source
  | true => exact h.dedent.finished_println line.source

theorem level_write (lines : List CodeLine) :
    (layout.write lines).level = lines.foldl CodeLine.levelAfter layout.level := by
  induction lines generalizing layout with
  | nil => rfl
  | cons line rest ih => rw [write_cons, ih, level_writeLine, List.foldl_cons]

/-- Behind finished lines the current line is fresh. -/
theorem Fresh.write (h : layout.Fresh) (lines : List CodeLine) : (layout.write lines).Fresh := by
  induction lines generalizing layout with
  | nil => exact h
  | cons line rest ih => exact ih (layout.fresh_writeLine line)

/-- Lines that are written are finished, each at its level. -/
theorem Fresh.finished_write (h : layout.Fresh) (lines : List CodeLine) :
    (layout.write lines).finished =
      (CodeLine.placed layout.level lines).reverse ++ layout.finished := by
  induction lines generalizing layout with
  | nil => rfl
  | cons line rest ih =>
      rw [write_cons, ih (layout.fresh_writeLine line), h.finished_writeLine, level_writeLine,
        CodeLine.placed, List.reverse_cons, List.append_assoc, List.singleton_append]

theorem fresh_start (level : Nat) : (start level).Fresh := rfl

end Layout

/-! ## Printing is writing lines -/

namespace Statement

open Layout

mutual

/-- A statement is printed, wherever printing has got to, by writing its lines. -/
theorem emit_eq_write (statement : Statement) (layout : Layout) :
    emit statement layout = layout.write statement.lines := by
  cases statement with
  | append target value =>
      have hsimple : (target.appendLine value).closes = false ∧
          (target.appendLine value).opens = false := by
        cases target <;> exact ⟨rfl, rfl⟩
      rw [emit, lines, ← Target.source_appendLine,
        ← layout.writeLine_simple _ hsimple.1 hsimple.2]
      rfl
  | choose branches otherwise =>
      have hbranches : emitBranches "if" branches layout =
          layout.write (branchLines .branch branches) := by
        cases branches with
        | nil => rfl
        | cons branch rest =>
            exact emitBranches_eq_write "if" .branch id (fun _ _ => rfl) (branch :: rest) (by simp)
              layout
      cases otherwise with
      | none =>
          rw [emit, hbranches, lines, write_append]
          rfl
      | some body =>
          rw [emit, emitAll_eq_write body, hbranches, lines, write_append, write_cons, write_append]
          rfl
  | loop subject body =>
      rw [emit, emitAll_eq_write body, lines, write_cons, write_append]
      rfl
  | within scope body =>
      rw [emit, emitAll_eq_write body, lines, write_cons, write_append]
      rfl
  | beginProps => rfl
  | initProperty name => rfl
  | createProperty name =>
      rw [emit, lines, ← CodeLine.source_endParts]
      rfl
  | initChildren => rfl
  | sealChildren =>
      rw [emit, lines, ← CodeLine.source_endMarkup]
      rfl
  | renderComponent name target =>
      have hsimple : (target.renderLine name).closes = false ∧
          (target.renderLine name).opens = false := by
        cases target <;> exact ⟨rfl, rfl⟩
      rw [emit, lines, ← Target.source_renderLine,
        ← layout.writeLine_simple _ hsimple.1 hsimple.2]
      rfl

/-- A program is printed by writing its lines. -/
theorem emitAll_eq_write (body : List Statement) (layout : Layout) :
    emitAll body layout = layout.write (linesAll body) := by
  cases body with
  | nil => rfl
  | cons statement rest =>
      rw [emitAll, emit_eq_write statement, emitAll_eq_write rest, linesAll, write_append]

/-- Branches are printed behind what takes the layout to their level: nothing for the first one, a step
back for each of the others. -/
theorem emitBranches_eq_write (keyword : String) (first : List Lookup.Step → CodeLine)
    (place : Layout → Layout)
    (hfirst : ∀ (layout : Layout) (condition : Lookup),
      ((place layout).println (opening keyword condition.conditionSource)).indent =
        layout.writeLine (first condition.steps))
    (branches : List Branch) (hne : branches ≠ []) (layout : Layout) :
    emitBranches keyword branches (place layout) = layout.write (branchLines first branches) := by
  cases branches with
  | nil => exact absurd rfl hne
  | cons branch rest =>
      obtain ⟨condition, body⟩ := branch
      rw [branchLines, write_cons, write_append]
      cases rest with
      | nil =>
          rw [emitBranches, hfirst, emitAll_eq_write body]
          rfl
      | cons next rest =>
          rw [emitBranches, hfirst, emitAll_eq_write body,
            emitBranches_eq_write elseIf .nextBranch dedent (fun _ _ => rfl) (next :: rest) (by simp)]

end

/-- The code of a program is its lines, each at its level. -/
theorem toSource_eq (statements : List Statement) :
    toSource statements =
      "\n".intercalate ((CodeLine.placed 0 (linesAll statements)).map Line.source) := by
  have hfresh := (fresh_start 0).write (linesAll statements)
  have hfinished := (fresh_start 0).finished_write (linesAll statements)
  have hlines : ((start 0).write (linesAll statements)).lines =
      CodeLine.placed 0 (linesAll statements) := by
    unfold Layout.lines
    rw [if_pos hfresh.lineIsEmpty, hfinished]
    simp [start]
  rw [toSource, emitAll_eq_write, source, hlines]

theorem linesAll_append (first second : List Statement) :
    linesAll (first ++ second) = linesAll first ++ linesAll second := by
  induction first with
  | nil => rfl
  | cons statement rest ih => rw [List.cons_append, linesAll, linesAll, ih, List.append_assoc]

end Statement

end ComponentTemplates
