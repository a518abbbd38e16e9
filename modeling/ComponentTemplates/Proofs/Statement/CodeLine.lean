/-
Module: ComponentTemplates.Proofs.Statement.CodeLine
Purpose: The lines of generated code as data, with their texts. The text of a line tells which line it
  is, and all that stands in it (`CodeLine.source_injective`); it fills one line of text, which can be
  found again behind any indentation (`CodeLine.fillsLine_source`).
Main exports: CodeLine, CodeLine.source, CodeLine.source_injective, FillsLine,
  CodeLine.fillsLine_source
-/
import ComponentTemplates.Proofs.Lookup.Source
import ComponentTemplates.Statement.Printer
import Mathlib.Data.List.Basic

namespace ComponentTemplates

open Text

/-- What is added to a text. -/
inductive Addition where
  | value (expr : Expr)
  | component (name : String)
deriving DecidableEq, Repr

/-- What is done with the place of a property. -/
inductive SlotUse where
  | beginParts
  | addPart (value : Expr)
  | endParts
  | beginMarkup
  | addMarkup (addition : Addition)
  | endMarkup
deriving DecidableEq, Repr

/-- A line of generated code. -/
inductive CodeLine where
  | page (addition : Addition)
  | slot (name : String) (use : SlotUse)
  | beginProps
  | endProps
  | branch (steps : List Lookup.Step)
  | nextBranch (steps : List Lookup.Step)
  | otherwise
  | loop (subject : Lookup)
  | within (scope : Lookup)
  | closing
deriving DecidableEq, Repr

/-- The end of a line that adds to a text. -/
def Addition.source : Addition → String
  | .value expr => expr.source ++ ";"
  | .component name => "component.render(" ++ Quoted.literal name ++ ", props, scope);"

/-- The end of a line that starts with the place of a property. -/
def SlotUse.source (name : String) : SlotUse → String
  | .beginParts => " = [];"
  | .addPart value => "[] = " ++ value.source ++ ";"
  | .endParts =>
      " = component.create_property(" ++ Quoted.literal name ++ ", " ++ propertySlot name ++ ");"
  | .beginMarkup => " = '';"
  | .addMarkup addition => " .= " ++ addition.source
  | .endMarkup => " = html_fragment(" ++ propertySlot name ++ ");"

/-- The text of a line, without the blanks in front. -/
def CodeLine.source : CodeLine → String
  | .page addition => "page .= " ++ addition.source
  | .slot name use => propertySlot name ++ use.source name
  | .beginProps => "props = [];"
  | .endProps => "unset(props);"
  | .branch steps => Statement.opening "if" (Lookup.conditionSource { steps })
  | .nextBranch steps => Statement.opening Statement.elseIf (Lookup.conditionSource { steps })
  | .otherwise => Statement.elseOpening
  | .loop subject => Statement.opening "loop" subject.source
  | .within scope => Statement.opening "with" scope.source
  | .closing => Statement.closing

section Equations

variable (name : String) (addition : Addition) (value : Expr)

theorem Addition.source_value : (Addition.value value).source = value.source ++ ";" := rfl

theorem Addition.source_component :
    (Addition.component name).source =
      "component.render(" ++ Quoted.literal name ++ ", props, scope);" := rfl

theorem SlotUse.source_addPart :
    (SlotUse.addPart value).source name = "[] = " ++ value.source ++ ";" := rfl

theorem SlotUse.source_addMarkup :
    (SlotUse.addMarkup addition).source name = " .= " ++ addition.source := rfl

theorem SlotUse.source_endParts :
    SlotUse.endParts.source name =
      " = component.create_property(" ++ Quoted.literal name ++ ", " ++ propertySlot name ++ ");" :=
  rfl

theorem SlotUse.source_endMarkup :
    SlotUse.endMarkup.source name = " = html_fragment(" ++ propertySlot name ++ ");" := rfl

theorem CodeLine.source_page : (CodeLine.page addition).source = "page .= " ++ addition.source := rfl

theorem CodeLine.source_endProps : CodeLine.endProps.source = "unset(props);" := rfl

theorem CodeLine.source_slot (use : SlotUse) :
    (CodeLine.slot name use).source = propertySlot name ++ use.source name := rfl

end Equations

/-! ## Lines are known from their texts -/

/-- Printed expressions can be told apart, and it can be told where they end. -/
theorem Expr.source_append_inj {first second : Expr} {after others : List Char} :
    first.source.toList ++ after = second.source.toList ++ others ↔
      first = second ∧ after = others := by
  have hother : ∀ {before following : List Char} (text : String) (lookup : Lookup),
      (Expr.literal text).source.toList ++ before ≠
        (Expr.value lookup).source.toList ++ following := by
    intro before following text lookup h
    simp [source, Quoted.toList_literal, Quoted.write, Lookup.source] at h
  constructor
  · intro h
    cases first with
    | literal text =>
        cases second with
        | literal text' =>
            obtain ⟨htext, hafter⟩ := Quoted.literal_append_inj.1 h
            exact ⟨by rw [htext], hafter⟩
        | value lookup => exact absurd h (hother text lookup)
    | value lookup =>
        cases second with
        | literal text => exact absurd h.symm (hother text lookup)
        | value lookup' =>
            obtain ⟨hlookup, hafter⟩ := Lookup.source_append_inj.1 h
            exact ⟨by rw [hlookup], hafter⟩
  · rintro ⟨rfl, rfl⟩
    rfl

/-- What is added can be told from the code that adds it. -/
theorem Addition.source_injective {first second : Addition} (h : first.source = second.source) :
    first = second := by
  -- A component is asked for by name, and no expression begins like that.
  have hother : ∀ expr name, (Addition.value expr).source ≠ (Addition.component name).source := by
    intro expr name h
    replace h := congrArg String.toList h
    unfold source at h
    cases expr with
    | literal text => simp [Expr.source, Quoted.toList_literal, Quoted.write] at h
    | value lookup => simp [Expr.source, Lookup.source] at h
  cases first with
  | value expr =>
      cases second with
      | value expr' =>
          have hexpr := congrArg String.toList h
          unfold source at hexpr
          simp only [String.toList_append, Expr.source_append_inj] at hexpr
          rw [hexpr.1]
      | component name => exact absurd h (hother expr name)
  | component name =>
      cases second with
      | value expr => exact absurd h.symm (hother expr name)
      | component name' =>
          have hname := congrArg String.toList h
          unfold source at hname
          simp only [String.toList_append, List.append_assoc, List.append_cancel_left_eq,
            Quoted.literal_append_inj] at hname
          rw [hname.1]

theorem SlotUse.source_injective {name : String} {first second : SlotUse}
    (h : first.source name = second.source name) : first = second := by
  have hchars := congrArg String.toList h
  unfold source at hchars
  cases first <;> cases second
  case addPart.addPart value value' =>
    simp only [String.toList_append, List.append_assoc, List.append_cancel_left_eq,
      Expr.source_append_inj] at hchars
    rw [hchars.1]
  case addMarkup.addMarkup addition addition' =>
    simp only [String.toList_append, List.append_cancel_left_eq, String.toList_inj] at hchars
    rw [Addition.source_injective hchars]
  all_goals simp at hchars ⊢

theorem toList_propertySlot (name : String) :
    (propertySlot name).toList = "props[".toList ++ ((Quoted.literal name).toList ++ "]".toList) := by
  simp only [propertySlot, String.toList_append, List.append_assoc]

theorem Statement.toList_opening (keyword subject : String) :
    (opening keyword subject).toList =
      keyword.toList ++ (" (".toList ++ (subject.toList ++ ") \x7b".toList)) := by
  simp only [opening, String.toList_append, List.append_assoc]

/-- The steps of a condition can be told from the line that it opens. -/
theorem Statement.opening_conditionSource_inj {keyword : String} {first second : Lookup}
    (h : opening keyword first.conditionSource = opening keyword second.conditionSource) :
    first.steps = second.steps := by
  replace h := congrArg String.toList h
  rw [toList_opening, toList_opening, List.append_cancel_left_eq, List.append_cancel_left_eq] at h
  exact (Lookup.conditionSource_append_inj.1 h).1

/-- A subject can be told from the line that it opens. -/
theorem Statement.opening_source_inj {keyword : String} {first second : Lookup}
    (h : opening keyword first.source = opening keyword second.source) : first = second := by
  replace h := congrArg String.toList h
  rw [toList_opening, toList_opening, List.append_cancel_left_eq, List.append_cancel_left_eq] at h
  exact (Lookup.source_append_inj.1 h).1

/-- No line has the text of another. -/
theorem CodeLine.source_injective {first second : CodeLine} (h : first.source = second.source) :
    first = second := by
  have hchars := congrArg String.toList h
  unfold source at h hchars
  cases first <;> cases second
  case page.page addition addition' =>
    simp only [String.toList_append, List.append_cancel_left_eq, String.toList_inj] at hchars
    rw [Addition.source_injective hchars]
  case slot.slot name use name' use' =>
    simp only [String.toList_append, toList_propertySlot, List.append_assoc,
      List.append_cancel_left_eq, Quoted.literal_append_inj] at hchars
    obtain ⟨rfl, huse⟩ := hchars
    rw [SlotUse.source_injective (String.toList_inj.1 huse)]
  case branch.branch steps steps' =>
    exact congrArg branch (Statement.opening_conditionSource_inj h)
  case nextBranch.nextBranch steps steps' =>
    exact congrArg nextBranch (Statement.opening_conditionSource_inj h)
  case loop.loop subject subject' => exact congrArg loop (Statement.opening_source_inj h)
  case within.within scope scope' => exact congrArg within (Statement.opening_source_inj h)
  -- Lines of different kinds differ before anything that is free stands in them.
  all_goals
    simp [toList_propertySlot, Statement.toList_opening, Statement.elseIf, Statement.elseOpening,
      Statement.closing] at hchars ⊢

/-! ## Lines stand on lines of their own -/

theorem Expr.newline_not_mem_source (value : Expr) : '\n' ∉ value.source.toList := by
  cases value with
  | literal text => exact Quoted.newline_not_mem_literal text
  | value lookup =>
      obtain ⟨steps, mode⟩ := lookup
      have hpath := Lookup.newline_not_mem_pathSource steps
      cases mode with
      | render => simp [source, Lookup.source, Lookup.Mode.accessor, hpath]
      | object => simp [source, Lookup.source, Lookup.Mode.accessor, hpath]

theorem newline_not_mem_propertySlot (name : String) : '\n' ∉ (propertySlot name).toList := by
  rw [toList_propertySlot]
  simp [Quoted.newline_not_mem_literal]

theorem Addition.newline_not_mem_source (addition : Addition) :
    '\n' ∉ addition.source.toList := by
  unfold source
  cases addition with
  | value expr => simp [Expr.newline_not_mem_source]
  | component name => simp [Quoted.newline_not_mem_literal]

theorem SlotUse.newline_not_mem_source (name : String) (use : SlotUse) :
    '\n' ∉ (use.source name).toList := by
  unfold source
  cases use with
  | beginParts => simp
  | addPart value => simp [Expr.newline_not_mem_source]
  | endParts =>
      simp [Quoted.newline_not_mem_literal, newline_not_mem_propertySlot]
  | beginMarkup => simp
  | addMarkup addition => simp [Addition.newline_not_mem_source]
  | endMarkup => simp [newline_not_mem_propertySlot]

/-- A text that fills a line, as it is found again behind blanks: it is not empty, begins with no
blank and goes on to no other line. -/
structure FillsLine (text : List Char) : Prop where
  newline : '\n' ∉ text
  first : ∃ c rest, text = c :: rest ∧ c ≠ ' '

/-- The code of a line stands on one line, and it does not begin with a blank. -/
theorem CodeLine.fillsLine_source (line : CodeLine) : FillsLine line.source.toList := by
  unfold source
  constructor
  case newline =>
    have hcondition : ∀ steps, '\n' ∉ (Lookup.conditionSource { steps }).toList := by
      intro steps
      simp [Lookup.conditionSource, Lookup.newline_not_mem_pathSource]
    have hlookup : ∀ lookup : Lookup, '\n' ∉ lookup.source.toList :=
      fun lookup => Expr.newline_not_mem_source (.value lookup)
    cases line with
    | page addition => simp [Addition.newline_not_mem_source]
    | slot name use => simp [newline_not_mem_propertySlot, SlotUse.newline_not_mem_source]
    | beginProps => simp
    | endProps => simp
    | branch steps => simp [Statement.toList_opening, hcondition]
    | nextBranch steps =>
        simp [Statement.toList_opening, Statement.elseIf, Statement.closing, hcondition]
    | otherwise => simp [Statement.elseOpening, Statement.closing]
    | loop subject => simp [Statement.toList_opening, hlookup]
    | within scope => simp [Statement.toList_opening, hlookup]
    | closing => simp [Statement.closing]
  case first =>
    cases line <;>
      simp [toList_propertySlot, Statement.toList_opening, Statement.elseIf,
        Statement.elseOpening, Statement.closing]

end ComponentTemplates
