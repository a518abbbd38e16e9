/-
Module: ComponentTemplates.Proofs.Printed.Execution
Purpose: The generated code taken at its word. It has one variable for the map of properties: a line binds
  it to a new map, another line unbinds it, and all other lines find in it what was bound last. Blocks
  and lookups are what they are for the interpreter. What the code does is settled by its text
  (`executeAll_eq_of_toSource_eq`), and as long as it binds and unbinds nothing, it does what the
  interpreter does (`executeAll_propertyBlock`).
Main exports: CodeLine.run, Printed.executeAll, Printed.executeAll_eq_of_toSource_eq,
  Printed.executeAll_propertyBlock
-/
import ComponentTemplates.Proofs.Execution.Effect
import ComponentTemplates.Proofs.Invocation.Shape
import ComponentTemplates.Proofs.Statement.Source

namespace ComponentTemplates

/-! ## One line -/

/-- The target whose place a property's slot is. -/
def Target.ofSlot (name : String) : Target :=
  if name = childrenProperty then .children else .property name

/-- Adds something to a target. A component is rendered with the map that the variable holds, and the map
stays there. -/
def Addition.run (host : Host) (target : Target) (machine : Machine) : Addition → Outcome
  | .value expr => machine.write target (machine.evalMarkup expr)
  | .component name =>
      match machine.frames with
      | [] => machine.fail (.noPropertiesFor name)
      | frame :: _ =>
          let call : HostCall :=
            { component := name, properties := Slots.properties frame, scope := machine.scope }
          match host call with
          | .ok answer => (machine.calling [call]).write target answer.toHtml
          | .error error => (.error error, machine.calling [call])

/-- Does something with the place of a property. Only inner markup is ever sealed. -/
def SlotUse.run (host : Host) (name : String) (machine : Machine) : SlotUse → Outcome
  | .beginParts => machine.setSlot name (.parts [])
  | .addPart value => machine.addPart name (machine.evalPart value)
  | .endParts => machine.createProperty name
  | .beginMarkup => machine.setSlot name (.markup "")
  | .addMarkup addition => addition.run host (Target.ofSlot name) machine
  | .endMarkup => machine.sealChildren

/-- Runs a line. The variable holds a map if there is a frame. Lines that open or close a block do nothing
by themselves. -/
def CodeLine.run (host : Host) (machine : Machine) : CodeLine → Outcome
  | .page addition => addition.run host .page machine
  | .slot name use => use.run host name machine
  | .beginProps => { machine with frames := [[]] }.done
  | .endProps => { machine with frames := [] }.done
  | .branch _ | .nextBranch _ | .otherwise | .loop _ | .within _ | .closing => machine.done

namespace Printed

/-! ## Programs -/

/-- Runs lines one after another, up to the first that fails. -/
def runLines (host : Host) : List CodeLine → Machine → Outcome
  | [], machine => machine.done
  | line :: rest, machine => (line.run host machine).andThen (runLines host rest)

/-- Runs the lines of a statement that has no body. -/
def perform (host : Host) (statement : Statement) (machine : Machine) : Outcome :=
  runLines host statement.lines machine

/-- Executes a statement as it is printed: a block as the interpreter does, any other statement line by
line. -/
def execute (host : Host) : Statement → Machine → Outcome :=
  executeWith (perform host)

/-- Executes the printed statements of a body. -/
def executeAll (host : Host) : List Statement → Machine → Outcome :=
  executeAllWith (perform host)

/-- Executes a printed choice. -/
def executeBranches (host : Host) : List Branch → (Machine → Outcome) → Machine → Outcome :=
  executeBranchesWith (perform host)

section Parts

variable (host : Host)

theorem executeAll_cons (statement : Statement) (rest : List Statement) (machine : Machine) :
    executeAll host (statement :: rest) machine =
      (execute host statement machine).andThen (executeAll host rest) := rfl

theorem executeAll_append (first second : List Statement) (machine : Machine) :
    executeAll host (first ++ second) machine =
      (executeAll host first machine).andThen (executeAll host second) :=
  executeAllWith_append (perform host) first second machine

@[simp] theorem executeAll_singleton (statement : Statement) (machine : Machine) :
    executeAll host [statement] machine = execute host statement machine :=
  executeAllWith_singleton (perform host) statement machine

theorem runLines_singleton (line : CodeLine) (machine : Machine) :
    runLines host [line] machine = line.run host machine :=
  Outcome.andThen_done _

/-- The line of a write does what the write does. -/
theorem execute_append (target : Target) (value : Expr) (machine : Machine) :
    execute host (.append target value) machine = machine.append target value := by
  change runLines host [target.appendLine value] machine = _
  rw [runLines_singleton]
  cases target with
  | page => rfl
  | property name => rfl
  | children => rfl

/-- A printed property begins as the statement for it says. -/
theorem execute_initProperty (name : String) (machine : Machine) :
    execute host (.initProperty name) machine = machine.setSlot name (.parts []) :=
  runLines_singleton host (.slot name .beginParts) machine

theorem execute_createProperty (name : String) (machine : Machine) :
    execute host (.createProperty name) machine = machine.createProperty name :=
  runLines_singleton host (.slot name .endParts) machine

/-- Printed inner markup begins as the statement for it says. -/
theorem execute_initChildren (machine : Machine) :
    execute host .initChildren machine = machine.setSlot childrenProperty (.markup "") :=
  runLines_singleton host (.slot childrenProperty .beginMarkup) machine

theorem execute_sealChildren (machine : Machine) :
    execute host .sealChildren machine = machine.sealChildren :=
  runLines_singleton host (.slot childrenProperty .endMarkup) machine

/-- A component is rendered where its target is, and then the variable is unbound. -/
theorem execute_renderComponent (name : String) {target : Target}
    (htarget : target ≠ .property childrenProperty) (machine : Machine) :
    execute host (.renderComponent name target) machine =
      ((Addition.component name).run host target machine).andThen
        fun after => { after with frames := [] }.done := by
  change runLines host [target.renderLine name, .endProps] machine = _
  have hline : (target.renderLine name).run host machine =
      (Addition.component name).run host target machine := by
    cases target with
    | page => rfl
    | children => rfl
    | property slot =>
        have hslot : Target.ofSlot slot = .property slot :=
          if_neg fun heq => htarget (congrArg Target.property heq)
        change (Addition.component name).run host (Target.ofSlot slot) machine = _
        rw [hslot]
  rw [runLines, hline]
  rfl

end Parts

/-! ## The text settles it -/

/-- No mode of a condition is noticed when printed code is executed. -/
theorem executeAll_uniformAll (host : Host) (body : List Statement) :
    executeAll host (Statement.uniformAll body) = executeAll host body :=
  executeAllWith_mapLookupsAll (Statement.unnoticed_uniformConditions (perform host)) body

/-- Programs with the same code are executed alike. -/
theorem executeAll_eq_of_toSource_eq {first second : List Statement}
    (hfirst : Statement.LegibleAll first) (hsecond : Statement.LegibleAll second)
    (h : Statement.toSource first = Statement.toSource second) (host : Host) :
    executeAll host first = executeAll host second := by
  have huniform := Statement.uniformAll_eq_of_linesAll_eq hfirst hsecond
    (linesAll_eq_of_toSource_eq h)
  rw [← executeAll_uniformAll host first, huniform, executeAll_uniformAll host second]

/-! ## Code that neither binds nor unbinds the variable -/

mutual

/-- The code of the parts of a property does what it does for the interpreter. -/
theorem executeAll_assemble (host : Host) (name : String) (guarded : Bool) (fragment : Fragment)
    (machine : Machine) :
    executeAll host (fragment.assemble name guarded) machine =
      ComponentTemplates.executeAll host (fragment.assemble name guarded) machine := by
  cases fragment with
  | literal text =>
      rw [Fragment.assemble]
      split
      · rfl
      · rw [executeAll_singleton, ComponentTemplates.executeAll_singleton, execute_append]
        rfl
  | value lookup =>
      rw [Fragment.assemble, executeAll_singleton, ComponentTemplates.executeAll_singleton,
        execute_append]
      rfl
  | branch guard body =>
      cases guard with
      | none =>
          rw [Fragment.assemble]
          exact executeAll_assembleAll host name guarded body machine
      | some guard =>
          have hbody := executeAll_assembleAll host name true body machine
          rw [Fragment.assemble]
          cases hassembled : Fragment.assembleAll name true body with
          | nil => rfl
          | cons statement rest =>
              rw [hassembled] at hbody
              rw [executeAll_singleton, ComponentTemplates.executeAll_singleton,
                execute_guarded, ← hbody]
              rfl
  | opener kind => rfl

/-- The statements for parts of an attribute do the same when they are printed. -/
theorem executeAll_assembleAll (host : Host) (name : String) (guarded : Bool)
    (fragments : List Fragment) (machine : Machine) :
    executeAll host (Fragment.assembleAll name guarded fragments) machine =
      ComponentTemplates.executeAll host (Fragment.assembleAll name guarded fragments) machine := by
  cases fragments with
  | nil => rfl
  | cons fragment rest =>
      rw [Fragment.assembleAll, executeAll_append, ComponentTemplates.executeAll_append,
        executeAll_assemble host name guarded fragment machine]
      congr 1
      funext next
      exact executeAll_assembleAll host name guarded rest next

end

variable (host : Host) (production : Production)

theorem executeAll_propertyBlock (name : String) (machine : Machine) :
    executeAll host (production.propertyBlock name) machine =
      ComponentTemplates.executeAll host (production.propertyBlock name) machine := by
  rw [Production.propertyBlock, normalizeProperty, List.cons_append, executeAll_cons,
    ComponentTemplates.executeAll_cons, execute_initProperty]
  congr 1
  funext next
  rw [executeAll_append, ComponentTemplates.executeAll_append, executeAll_assembleAll]
  congr 1
  funext last
  rw [executeAll_singleton, ComponentTemplates.executeAll_singleton, execute_createProperty]
  rfl

/-- The blocks of properties do the same when they are printed. -/
theorem executeAll_propertyBlocks (names : List String) (machine : Machine) :
    executeAll host (names.flatMap production.propertyBlock) machine =
      ComponentTemplates.executeAll host (names.flatMap production.propertyBlock) machine := by
  induction names generalizing machine with
  | nil => rfl
  | cons name rest ih =>
      rw [List.flatMap_cons, executeAll_append, ComponentTemplates.executeAll_append,
        executeAll_propertyBlock]
      congr 1
      funext next
      exact ih next

end Printed

end ComponentTemplates
