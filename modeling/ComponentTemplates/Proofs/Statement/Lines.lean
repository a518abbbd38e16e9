/-
Module: ComponentTemplates.Proofs.Statement.Lines
Purpose: Programs as the lines that they are printed as. Each line stands on a line of its own with
  blanks in front, so that the lines are found again in the code (`textLines_toSource`) and programs
  with the same code have the same lines.
Main exports: Statement.lines, Statement.linesAll, Layout.Holds, textLines_toSource,
  linesAll_eq_of_toSource_eq
-/
import ComponentTemplates.Proofs.Layout
import ComponentTemplates.Proofs.Statement.CodeLine

namespace ComponentTemplates

open Text

/-! ## Programs are printed line by line -/

/-- The line that adds an expression to a target. -/
def Target.appendLine (value : Expr) : Target → CodeLine
  | .page => .page (.value value)
  | .property name => .slot name (.addPart value)
  | .children => .slot childrenProperty (.addMarkup (.value value))

/-- The line that adds a rendered component to a target. -/
def Target.renderLine (name : String) : Target → CodeLine
  | .page => .page (.component name)
  | .property slot => .slot slot (.addMarkup (.component name))
  | .children => .slot childrenProperty (.addMarkup (.component name))

namespace Statement

mutual

/-- The lines that a statement is printed as. -/
def lines : Statement → List CodeLine
  | .append target value => [target.appendLine value]
  | .choose branches none => branchLines .branch branches ++ [.closing]
  | .choose branches (some body) =>
      branchLines .branch branches ++ .otherwise :: (linesAll body ++ [.closing])
  | .loop subject body => .loop subject :: (linesAll body ++ [.closing])
  | .within scope body => .within scope :: (linesAll body ++ [.closing])
  | .beginProps => [.beginProps]
  | .initProperty name => [.slot name .beginParts]
  | .createProperty name => [.slot name .endParts]
  | .initChildren => [.slot childrenProperty .beginMarkup]
  | .sealChildren => [.slot childrenProperty .endMarkup]
  | .renderComponent name target => [target.renderLine name, .endProps]
termination_by structural statement => statement

/-- The lines of each statement of a body. -/
def linesAll : List Statement → List CodeLine
  | [] => []
  | statement :: rest => lines statement ++ linesAll rest
termination_by structural body => body

/-- The lines of the branches of a choice, of which the first is opened as given. -/
def branchLines (opening : List Lookup.Step → CodeLine) : List Branch → List CodeLine
  | [] => []
  | ⟨condition, body⟩ :: rest =>
      opening condition.steps :: (linesAll body ++ branchLines .nextBranch rest)
termination_by structural branches => branches

end

end Statement

namespace Layout

/-- The texts of the finished lines in order. -/
def texts (layout : Layout) : List String :=
  layout.finished.reverse.map (·.text)

/-- The given lines are finished and nothing else, and the next line is still empty. -/
structure Holds (layout : Layout) (lines : List CodeLine) : Prop where
  empty : layout.lineIsEmpty = true
  texts : layout.texts = lines.map CodeLine.source

variable {layout : Layout} {lines : List CodeLine}

theorem holds_start : (start 0).Holds [] :=
  ⟨rfl, rfl⟩

/-- A line that is printed is finished behind those before it. -/
theorem Holds.println (h : layout.Holds lines) (line : CodeLine) :
    (layout.println line.source).Holds (lines ++ [line]) := by
  have hcurrent : layout.current.text = "" := by simpa [lineIsEmpty] using h.empty
  constructor
  · rfl
  · have htexts : (layout.println line.source).texts = layout.texts ++ [line.source] := by
      simp [Layout.texts, Layout.println, print, hcurrent]
    rw [htexts, h.texts, List.map_append, List.map_singleton]

theorem Holds.setLevel (h : layout.Holds lines) (level : Nat) :
    (layout.setLevel level).Holds lines := by
  constructor
  · unfold Layout.setLevel
    rw [if_pos h.empty]
    exact h.empty
  · exact h.texts

theorem Holds.indent (h : layout.Holds lines) : layout.indent.Holds lines :=
  h.setLevel _

theorem Holds.dedent (h : layout.Holds lines) : layout.dedent.Holds lines :=
  h.setLevel _

end Layout

theorem Target.source_appendLine (target : Target) (value : Expr) :
    (target.appendLine value).source =
      target.source ++ target.appendOperator ++ " " ++ value.source ++ ";" := by
  rw [← String.toList_inj]
  cases target with
  | page =>
      simp [appendLine, source, appendOperator, CodeLine.source_page, Addition.source_value]
  | property name =>
      simp [appendLine, source, appendOperator, CodeLine.source_slot, SlotUse.source_addPart]
  | children =>
      simp [appendLine, source, appendOperator, CodeLine.source_slot, SlotUse.source_addMarkup,
        Addition.source_value]

theorem Target.source_renderLine (target : Target) (name : String) :
    (target.renderLine name).source =
      target.source ++ " .= component.render(" ++ Quoted.literal name ++ ", props, scope);" := by
  rw [← String.toList_inj]
  cases target with
  | page =>
      simp [renderLine, source, CodeLine.source_page, Addition.source_component]
  | property slot =>
      simp [renderLine, source, CodeLine.source_slot, SlotUse.source_addMarkup,
        Addition.source_component]
  | children =>
      simp [renderLine, source, CodeLine.source_slot, SlotUse.source_addMarkup,
        Addition.source_component]

theorem CodeLine.source_endParts (name : String) :
    (CodeLine.slot name .endParts).source =
      propertySlot name ++ " = component.create_property(" ++ Quoted.literal name ++ ", " ++
        propertySlot name ++ ");" := by
  rw [source_slot, SlotUse.source_endParts]
  simp only [String.append_assoc]

theorem CodeLine.source_endMarkup :
    (CodeLine.slot childrenProperty .endMarkup).source =
      propertySlot childrenProperty ++ " = html_fragment(" ++ propertySlot childrenProperty ++
        ");" := by
  rw [source_slot, SlotUse.source_endMarkup]
  simp only [String.append_assoc]

namespace Statement

open Layout

mutual

/-- A statement is printed behind what is printed already, as its lines. -/
theorem holds_emit (statement : Statement) {layout : Layout} {added : List CodeLine}
    (h : layout.Holds added) : (emit statement layout).Holds (added ++ statement.lines) := by
  cases statement with
  | append target value =>
      rw [lines, emit, ← Target.source_appendLine]
      exact h.println _
  | choose branches otherwise =>
      have hbranches := holds_emitBranches "if" .branch (fun _ => rfl) branches h
      cases otherwise with
      | none =>
          rw [lines, emit, ← List.append_assoc]
          exact hbranches.dedent.println .closing
      | some body =>
          have hopened := hbranches.dedent.println .otherwise
          have hbody := holds_emitAll body hopened.indent
          have hclosed := hbody.dedent.println .closing
          simp only [List.append_assoc, List.cons_append, List.nil_append] at hclosed
          rw [lines, emit]
          exact hclosed
  | loop subject body =>
      have hbody := holds_emitAll body (h.println (.loop subject)).indent
      have hclosed := hbody.dedent.println .closing
      simp only [List.append_assoc, List.cons_append, List.nil_append] at hclosed
      rw [lines, emit]
      exact hclosed
  | within scope body =>
      have hbody := holds_emitAll body (h.println (.within scope)).indent
      have hclosed := hbody.dedent.println .closing
      simp only [List.append_assoc, List.cons_append, List.nil_append] at hclosed
      rw [lines, emit]
      exact hclosed
  | beginProps => exact h.println .beginProps
  | initProperty name => exact h.println (.slot name .beginParts)
  | createProperty name =>
      rw [lines, emit, ← CodeLine.source_endParts]
      exact h.println _
  | initChildren => exact h.println (.slot childrenProperty .beginMarkup)
  | sealChildren =>
      rw [lines, emit, ← CodeLine.source_endMarkup]
      exact h.println _
  | renderComponent name target =>
      have hrendered := (h.println (target.renderLine name)).println .endProps
      rw [Target.source_renderLine, CodeLine.source_endProps, List.append_assoc] at hrendered
      rw [lines, emit]
      exact hrendered

/-- A program is printed as its lines. -/
theorem holds_emitAll (body : List Statement) {layout : Layout} {added : List CodeLine}
    (h : layout.Holds added) : (emitAll body layout).Holds (added ++ linesAll body) := by
  cases body with
  | nil => simpa [linesAll, emitAll] using h
  | cons statement rest =>
      rw [linesAll, emitAll, ← List.append_assoc]
      exact holds_emitAll rest (holds_emit statement h)

/-- Branches are printed as their lines, the first one opened as given. -/
theorem holds_emitBranches (keyword : String) (first : List Lookup.Step → CodeLine)
    (hfirst : ∀ condition : Lookup,
      (first condition.steps).source = opening keyword condition.conditionSource)
    (branches : List Branch) {layout : Layout} {added : List CodeLine}
    (h : layout.Holds added) :
    (emitBranches keyword branches layout).Holds (added ++ branchLines first branches) := by
  cases branches with
  | nil => simpa [branchLines, emitBranches] using h
  | cons branch rest =>
      obtain ⟨condition, body⟩ := branch
      have hopened := h.println (first condition.steps)
      rw [hfirst] at hopened
      have hbody := holds_emitAll body hopened.indent
      cases rest with
      | nil =>
          rw [branchLines, emitBranches]
          simpa [branchLines] using hbody
      | cons next rest =>
          have hrest := holds_emitBranches elseIf .nextBranch (fun _ => rfl) (next :: rest)
            hbody.dedent
          rw [branchLines, emitBranches]
          simpa using hrest

end

end Statement

/-- The lines of a text without the blanks in front of them, empty ones left out. -/
def textLines (cs : List Char) : List (List Char) :=
  ((cs.splitOn '\n').map (·.dropWhile (· == ' '))).filter (· ≠ [])

/-- A line with a text on it stands in the code with two blanks in front for each level. -/
theorem Layout.Line.toList_source {line : Layout.Line} (h : FillsLine line.text.toList) :
    line.source.toList = List.replicate (2 * line.indent) ' ' ++ line.text.toList := by
  have hne : line.text ≠ "" := by
    intro hempty
    obtain ⟨c, rest, hchars, _⟩ := h.first
    simp [hempty] at hchars
  simp [source, hne, toList_blanks]

/-- Texts that fill lines are found again, however far they are indented. -/
theorem textLines_intercalate {lines : List Layout.Line}
    (h : ∀ line ∈ lines, FillsLine line.text.toList) :
    textLines (['\n'].intercalate (lines.map (·.source.toList))) =
      lines.map (·.text.toList) := by
  have hsources : lines.map (·.source.toList) =
      lines.map fun line => List.replicate (2 * line.indent) ' ' ++ line.text.toList :=
    List.map_congr_left fun line hline => Layout.Line.toList_source (h line hline)
  have htexts : (lines.map (·.source.toList)).map (·.dropWhile (· == ' ')) =
      lines.map (·.text.toList) := by
    rw [hsources, List.map_map]
    apply List.map_congr_left
    intro line hline
    obtain ⟨c, rest, hchars, hc⟩ := (h line hline).first
    refine dropWhile_stretch (by simp) ?_
    simpa [hchars] using hc
  have hkept : (lines.map (·.text.toList)).filter (· ≠ []) = lines.map (·.text.toList) := by
    rw [List.filter_eq_self]
    intro text htext
    obtain ⟨line, hline, rfl⟩ := List.mem_map.1 htext
    obtain ⟨c, rest, hchars, _⟩ := (h line hline).first
    simp [hchars]
  have hnewline : ∀ text ∈ lines.map (·.source.toList), '\n' ∉ text := by
    rw [hsources]
    intro text htext
    obtain ⟨line, hline, rfl⟩ := List.mem_map.1 htext
    simp [(h line hline).newline]
  unfold textLines
  cases lines with
  | nil => simp
  | cons line rest => rw [List.splitOn_intercalate '\n' hnewline (by simp), htexts, hkept]

/-- The lines of the generated code are found in it. -/
theorem textLines_toSource (statements : List Statement) :
    textLines (Statement.toSource statements).toList =
      (Statement.linesAll statements).map fun line => line.source.toList := by
  obtain ⟨hempty, htexts⟩ := Statement.holds_emitAll statements Layout.holds_start
  unfold Statement.toSource
  generalize Statement.emitAll statements (Layout.start 0) = layout at hempty htexts ⊢
  have hsource : layout.source.toList =
      ['\n'].intercalate (layout.finished.reverse.map (·.source.toList)) := by
    simp [Layout.source, Layout.lines, hempty, Function.comp_def]
  rw [Layout.texts, List.nil_append] at htexts
  have hfill : ∀ line ∈ layout.finished.reverse, FillsLine line.text.toList := by
    intro line hline
    have hmem : line.text ∈ layout.finished.reverse.map (·.text) := List.mem_map_of_mem hline
    rw [htexts] at hmem
    obtain ⟨printed, _, hprinted⟩ := List.mem_map.1 hmem
    rw [← hprinted]
    exact printed.fillsLine_source
  rw [hsource, textLines_intercalate hfill]
  have hchars := congrArg (List.map String.toList) htexts
  rwa [List.map_map, List.map_map] at hchars

/-- Programs with the same code have the same lines. -/
theorem linesAll_eq_of_toSource_eq {first second : List Statement}
    (h : Statement.toSource first = Statement.toSource second) :
    Statement.linesAll first = Statement.linesAll second := by
  have hinjective : Function.Injective fun line : CodeLine => line.source.toList :=
    fun _ _ hchars => CodeLine.source_injective (String.toList_inj.1 hchars)
  apply List.map_injective_iff.2 hinjective
  rw [← textLines_toSource, ← textLines_toSource, h]

end ComponentTemplates
