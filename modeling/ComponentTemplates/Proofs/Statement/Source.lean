/-
Module: ComponentTemplates.Proofs.Statement.Source
Purpose: The generated code determines the program. Two programs that are printed alike are the same but
  for the modes of conditions, which neither the code shows nor an execution notices
  (`toSource_eq_iff`).
Main exports: emitAll_uniformAll, executeAll_uniformAll, toSource_eq_iff
-/
import ComponentTemplates.Interpreter
import ComponentTemplates.Proofs.Statement.Blocks

namespace ComponentTemplates

namespace Statement

/-! ## What the modes of conditions do not matter for -/

mutual

/-- No mode of a condition is printed. -/
theorem emit_uniform (statement : Statement) (layout : Layout) :
    emit statement.uniform layout = emit statement layout := by
  cases statement with
  | choose branches otherwise =>
      cases otherwise with
      | none =>
          change emit (.choose (uniformBranches branches) none) layout = _
          rw [emit, emit, emitBranches_uniformBranches "if" branches]
      | some body =>
          change emit (.choose (uniformBranches branches) (some (uniformAll body))) layout = _
          rw [emit, emit, emitBranches_uniformBranches "if" branches, emitAll_uniformAll body]
  | loop subject body =>
      change emit (.loop subject (uniformAll body)) layout = _
      rw [emit, emit, emitAll_uniformAll body]
  | within scope body =>
      change emit (.within scope (uniformAll body)) layout = _
      rw [emit, emit, emitAll_uniformAll body]
  | append | beginProps | initProperty | createProperty | initChildren | sealChildren
  | renderComponent => rfl

/-- The modes of conditions do not show in the code of a program. -/
theorem emitAll_uniformAll (body : List Statement) (layout : Layout) :
    emitAll (uniformAll body) layout = emitAll body layout := by
  cases body with
  | nil => rfl
  | cons statement rest =>
      rw [uniformAll_cons, emitAll, emitAll, emit_uniform statement, emitAll_uniformAll rest]

theorem emitBranches_uniformBranches (keyword : String) (branches : List Branch)
    (layout : Layout) :
    emitBranches keyword (uniformBranches branches) layout =
      emitBranches keyword branches layout := by
  cases branches with
  | nil => rfl
  | cons branch rest =>
      obtain ⟨condition, body⟩ := branch
      have hcondition : (condition.withMode .render).conditionSource = condition.conditionSource :=
        rfl
      cases rest with
      | nil =>
          change emitBranches keyword [⟨condition.withMode .render, uniformAll body⟩] layout = _
          rw [emitBranches, emitBranches, hcondition, emitAll_uniformAll body]
      | cons next rest =>
          obtain ⟨other, inner⟩ := next
          have hrest := emitBranches_uniformBranches elseIf (⟨other, inner⟩ :: rest)
          rw [uniformBranches_cons] at hrest
          rw [uniformBranches_cons, uniformBranches_cons, emitBranches, hcondition,
            emitAll_uniformAll body, emitBranches, hrest]

end

/-- No mode of a condition is noticed by an execution, however the other statements are run. -/
theorem unnoticed_uniformConditions (perform : Statement → Machine → Outcome) :
    uniformConditions.Unnoticed perform where
  condition _ _ := rfl
  subject _ _ := rfl
  value _ _ _ := rfl

/-- The modes of conditions do not matter to a program. -/
theorem executeAll_uniformAll (host : Host) (body : List Statement) :
    executeAll host (uniformAll body) = executeAll host body :=
  executeAllWith_mapLookupsAll (unnoticed_uniformConditions (perform host)) body

/-- A program is read from its lines but for the modes of its conditions. -/
theorem uniformAll_eq_of_linesAll_eq {first second : List Statement} (hfirst : LegibleAll first)
    (hsecond : LegibleAll second) (h : linesAll first = linesAll second) :
    uniformAll first = uniformAll second := by
  have hread : (linesAll first).foldlM Reading.step {} =
      some { body := [] ++ uniformAll first } := reads_linesAll first hfirst {}
  have hother : (linesAll second).foldlM Reading.step {} =
      some { body := [] ++ uniformAll second } := reads_linesAll second hsecond {}
  rw [h, hother] at hread
  simpa using hread.symm

/-- **Unique readability**: programs whose choices all have a branch, and which render no component
into the property of the inner markup, have the same code just if they are the same but for the modes
of conditions, whatever their texts are made of; and those modes do not matter to any execution. -/
theorem toSource_eq_iff {first second : List Statement} (hfirst : LegibleAll first)
    (hsecond : LegibleAll second) :
    (toSource first = toSource second ↔ uniformAll first = uniformAll second) ∧
      ∀ host body, executeAll host (uniformAll body) = executeAll host body := by
  refine ⟨⟨?same, ?printed⟩, executeAll_uniformAll⟩
  case same =>
    intro h
    exact uniformAll_eq_of_linesAll_eq hfirst hsecond (linesAll_eq_of_toSource_eq h)
  case printed =>
    intro h
    rw [toSource, toSource, ← emitAll_uniformAll first, h, emitAll_uniformAll second]

/-- Names and texts that look like the end of a literal, of a line, of a step or of a block. -/
def forgedCode (mode : Lookup.Mode) : List Statement :=
  [.choose
    [⟨{ steps := [⟨"a.b", ["x', 'y"]⟩, ⟨"c('z')", []⟩], mode },
      [.append (.property "c'] = [") (.literal "1';\npage .= '2\\")]⟩]
    (some [.renderComponent "\x7d else \x7b" .page])]

/-- What the texts of `forgedCode` look like. -/
def honestCode : List Statement :=
  [.choose
    [⟨{ steps := [⟨"a", []⟩, ⟨"b", ["x", "y"]⟩, ⟨"c", ["z"]⟩] },
      [.append (.property "c") (.literal "1"), .append .page (.literal "2")]⟩]
    (some [])]

/-- Texts do not forge code, and the mode of a condition does not show. -/
theorem toSource_eq_iff_forgedCode :
    LegibleAll (forgedCode .object) ∧ LegibleAll (forgedCode .render) ∧ LegibleAll honestCode ∧
      toSource (forgedCode .object) ≠ toSource honestCode ∧
      toSource (forgedCode .object) = toSource (forgedCode .render) := by
  have hforged : ∀ mode, LegibleAll (forgedCode mode) := by
    intro mode
    simp [forgedCode, LegibleAll, Legible, LegibleBranches]
  have hhonest : LegibleAll honestCode := by
    simp [honestCode, LegibleAll, Legible, LegibleBranches]
  refine ⟨hforged _, hforged _, hhonest, ?differ, ?agree⟩
  case differ =>
    rw [Ne, (toSource_eq_iff (hforged _) hhonest).1]
    simp [forgedCode, honestCode, uniformAll, mapLookupsAll, mapLookups, mapLookupsBranches]
  case agree =>
    rw [(toSource_eq_iff (hforged _) (hforged _)).1]
    rfl

end Statement

end ComponentTemplates
