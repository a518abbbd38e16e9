/-
Module: ComponentTemplates.Proofs.Statement.Lookups
Purpose: Programs with their lookups replaced, at any depth, by the use that is made of them. Where the
  replacements are not noticed at one use, they are not noticed in any execution, however the statements
  without a body are run (`executeAllWith_mapLookupsAll`).
Main exports: LookupChange, Statement.mapLookupsAll, LookupChange.Unnoticed, executeAllWith_mapLookupsAll
-/
import ComponentTemplates.Interpreter

namespace ComponentTemplates

/-- What lookups are replaced by. -/
structure LookupChange where
  /-- The condition of a branch. -/
  condition : Lookup → Lookup := id
  /-- What a loop goes over or a scope block brings in. -/
  subject : Lookup → Lookup := id
  /-- What is written. -/
  value : Expr → Expr := id

namespace Statement

mutual

/-- The statement with each of its lookups, at any depth, replaced. -/
def mapLookups (change : LookupChange) : Statement → Statement
  | .append target value => .append target (change.value value)
  | .choose branches none => .choose (mapLookupsBranches change branches) none
  | .choose branches (some body) =>
      .choose (mapLookupsBranches change branches) (some (mapLookupsAll change body))
  | .loop subject body => .loop (change.subject subject) (mapLookupsAll change body)
  | .within scope body => .within (change.subject scope) (mapLookupsAll change body)
  | .beginProps => .beginProps
  | .initProperty name => .initProperty name
  | .createProperty name => .createProperty name
  | .initChildren => .initChildren
  | .sealChildren => .sealChildren
  | .renderComponent name target => .renderComponent name target
termination_by structural statement => statement

/-- `mapLookups` on each statement of a body. -/
def mapLookupsAll (change : LookupChange) : List Statement → List Statement
  | [] => []
  | statement :: rest => statement.mapLookups change :: mapLookupsAll change rest
termination_by structural body => body

/-- `mapLookups` on the condition and the body of each branch. -/
def mapLookupsBranches (change : LookupChange) : List Branch → List Branch
  | [] => []
  | ⟨condition, body⟩ :: rest =>
      ⟨change.condition condition, mapLookupsAll change body⟩ :: mapLookupsBranches change rest
termination_by structural branches => branches

end

theorem mapLookupsAll_append (change : LookupChange) (first second : List Statement) :
    mapLookupsAll change (first ++ second) =
      mapLookupsAll change first ++ mapLookupsAll change second := by
  induction first with
  | nil => rfl
  | cons statement rest ih =>
      rw [List.cons_append, mapLookupsAll, mapLookupsAll, ih, List.cons_append]

end Statement

/-- Whoever looks at a replaced lookup sees the value that was there before, and what is written with it is
the same. -/
structure LookupChange.Unnoticed (change : LookupChange) (perform : Statement → Machine → Outcome) :
    Prop where
  condition (machine : Machine) (lookup : Lookup) :
    machine.eval (change.condition lookup) = machine.eval lookup
  subject (machine : Machine) (lookup : Lookup) :
    machine.eval (change.subject lookup) = machine.eval lookup
  value (target : Target) (value : Expr) (machine : Machine) :
    perform (.append target (change.value value)) machine = perform (.append target value) machine

section Execution

open Statement

variable {change : LookupChange} {perform : Statement → Machine → Outcome}

mutual

/-- A change that simple statements and conditions do not notice is not noticed by any statement. -/
theorem executeWith_mapLookups (h : change.Unnoticed perform) (statement : Statement) :
    executeWith perform (statement.mapLookups change) = executeWith perform statement := by
  funext machine
  cases statement with
  | append target value => exact h.value target value machine
  | choose branches otherwise =>
      cases otherwise with
      | none =>
          rw [mapLookups, executeWith, executeWith, executeBranchesWith_mapLookupsBranches h branches]
      | some body =>
          rw [mapLookups, executeWith, executeWith, executeAllWith_mapLookupsAll h body,
            executeBranchesWith_mapLookupsBranches h branches]
  | loop subject body =>
      rw [mapLookups, executeWith, executeWith, h.subject, executeAllWith_mapLookupsAll h body]
  | within scope body =>
      rw [mapLookups, executeWith, executeWith, h.subject, executeAllWith_mapLookupsAll h body]
  | beginProps | initProperty | createProperty | initChildren | sealChildren | renderComponent => rfl

/-- A program with replacements that are not noticed does what it did. -/
theorem executeAllWith_mapLookupsAll (h : change.Unnoticed perform) (body : List Statement) :
    executeAllWith perform (mapLookupsAll change body) = executeAllWith perform body := by
  funext machine
  cases body with
  | nil => rfl
  | cons statement rest =>
      rw [mapLookupsAll, executeAllWith, executeAllWith, executeWith_mapLookups h statement,
        executeAllWith_mapLookupsAll h rest]

theorem executeBranchesWith_mapLookupsBranches (h : change.Unnoticed perform) (branches : List Branch) :
    executeBranchesWith perform (mapLookupsBranches change branches) =
      executeBranchesWith perform branches := by
  funext otherwise machine
  cases branches with
  | nil => rfl
  | cons branch rest =>
      obtain ⟨condition, body⟩ := branch
      rw [mapLookupsBranches, executeBranchesWith, executeBranchesWith, h.condition,
        executeAllWith_mapLookupsAll h body, executeBranchesWith_mapLookupsBranches h rest]

end

end Execution

end ComponentTemplates
