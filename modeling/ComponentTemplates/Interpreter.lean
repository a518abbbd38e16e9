/-
Module: ComponentTemplates.Interpreter
Purpose: Statements executed. The state is the scope, the stack of property maps that have been begun
  (the latest first), the page so far and the host calls so far. It is known after a failure too, so
  that what a failing program leaves behind can be spoken of. Components are rendered by a host. Its
  answer depends on the one call only: that a host answers the same call twice in the same way is part of
  what a host is here, as rendering from templates and data does.
Main exports: HostCall, Host, Slot, Machine, Outcome, executeAllWith, execute, executeAll, runProgram
-/
import ComponentTemplates.RenderError
import ComponentTemplates.Scope
import ComponentTemplates.Statement.Basic

namespace ComponentTemplates

/-- The properties of a component, in the order of their first mention. -/
abbrev Properties := Bindings Value

/-- A request to render a component. -/
structure HostCall where
  component : String
  properties : Properties
  scope : Scope
deriving Inhabited

/-- Renders components. The answer to a call does not depend on the calls before it. -/
abbrev Host := HostCall → Except RenderError Value

/-- A property while its map is being built. -/
inductive Slot where
  /-- Begun, with the parts so far. -/
  | parts (values : List Value)
  /-- Inner markup, as far as it is written. -/
  | markup (html : String)
  | done (value : Value)
deriving Inhabited

/-- The value that a property has when its component is rendered. -/
def Slot.value (name : String) : Slot → Value
  | .parts values => Value.createProperty name values
  | .markup html => .html html
  | .done value => value

/-- A map of properties being built. -/
abbrev Slots := Bindings Slot

/-- The finished map of properties. -/
def Slots.properties (slots : Slots) : Properties :=
  slots.map fun slot => (slot.1, slot.2.value slot.1)

/-- The state of an execution. -/
structure Machine where
  scope : Scope
  frames : List Slots := []
  page : String := ""
  calls : List HostCall := []
deriving Inhabited

/-- What a step of an execution ends with: success or an error, and the state in either case. -/
abbrev Outcome := Except RenderError Unit × Machine

namespace Machine

/-- A step that does nothing but reach a state. -/
def done (machine : Machine) : Outcome :=
  (.ok (), machine)

/-- A step that fails because the program is wrong. -/
def fail (machine : Machine) (fault : ProgramFault) : Outcome :=
  (.error (.invalidProgram fault), machine)

/-- The value of a lookup, its mode aside. -/
def eval (machine : Machine) (lookup : Lookup) : Value :=
  machine.scope.resolve lookup.steps

/-- The value of a lookup in its mode: as markup for a page, else as it is. -/
def evalMode (machine : Machine) (lookup : Lookup) : Value :=
  match lookup.mode with
  | .render => .html (machine.eval lookup).toHtml
  | .object => machine.eval lookup

/-- The part that an expression adds to a property. Lookups yield the value itself. -/
def evalPart (machine : Machine) : Expr → Value
  | .literal text => .text text
  | .value lookup => machine.eval lookup

/-- The markup that an expression adds to a page or to inner markup. -/
def evalMarkup (machine : Machine) : Expr → String
  | .literal text => text
  | .value lookup => (machine.evalMode lookup).toHtml

/-- Changes the map of properties that was begun last. -/
def updateFrame (machine : Machine) (change : Slots → Except ProgramFault Slots) : Outcome :=
  match machine.frames with
  | [] => machine.fail .noPropertyMap
  | frame :: outer =>
      match change frame with
      | .ok frame => { machine with frames := frame :: outer }.done
      | .error fault => machine.fail fault

/-- Gives a property a slot. -/
def setSlot (machine : Machine) (name : String) (slot : Slot) : Outcome :=
  machine.updateFrame fun frame => .ok (Bindings.insert frame name slot)

/-- Adds a part to a property that has been begun. -/
def addPart (machine : Machine) (name : String) (part : Value) : Outcome :=
  machine.updateFrame fun frame =>
    match Bindings.get? frame name with
    | some (.parts values) => .ok (Bindings.insert frame name (.parts (values ++ [part])))
    | _ => .error (.propertyNotBegun name)

/-- Makes a property's value from its parts. -/
def createProperty (machine : Machine) (name : String) : Outcome :=
  machine.updateFrame fun frame =>
    match Bindings.get? frame name with
    | some (.parts values) =>
        .ok (Bindings.insert frame name (.done (Value.createProperty name values)))
    | _ => .error (.propertyNotBegun name)

/-- Adds to the inner markup that has been begun. -/
def addChildren (machine : Machine) (html : String) : Outcome :=
  machine.updateFrame fun frame =>
    match Bindings.get? frame childrenProperty with
    | some (.markup old) => .ok (Bindings.insert frame childrenProperty (.markup (old ++ html)))
    | _ => .error .childrenNotBegun

/-- Makes inner markup that has been begun a value. -/
def sealChildren (machine : Machine) : Outcome :=
  machine.updateFrame fun frame =>
    match Bindings.get? frame childrenProperty with
    | some (.markup html) => .ok (Bindings.insert frame childrenProperty (.done (.html html)))
    | _ => .error .childrenNotBegun

/-- Adds markup to a target. -/
def write (machine : Machine) (target : Target) (html : String) : Outcome :=
  match target with
  | .page => { machine with page := machine.page ++ html }.done
  | .children => machine.addChildren html
  | .property name => machine.fail (.renderIntoProperty name)

/-- Adds an expression to a target. -/
def append (machine : Machine) (target : Target) (value : Expr) : Outcome :=
  match target with
  | .property name => machine.addPart name (machine.evalPart value)
  | .page | .children => machine.write target (machine.evalMarkup value)

/-- Has the host render a component with the properties that were begun last. -/
def render (host : Host) (machine : Machine) (component : String) (target : Target) : Outcome :=
  match machine.frames with
  | [] => machine.fail (.noPropertiesFor component)
  | frame :: outer =>
      let call : HostCall :=
        { component, properties := Slots.properties frame, scope := machine.scope }
      let machine := { machine with frames := outer, calls := machine.calls ++ [call] }
      match host call with
      | .ok value => machine.write target value.toHtml
      | .error error => (.error error, machine)

end Machine

namespace Outcome

/-- Goes on with another step, unless the first one failed. -/
def andThen (outcome : Outcome) (next : Machine → Outcome) : Outcome :=
  match outcome with
  | (.ok (), machine) => next machine
  | (.error error, machine) => (.error error, machine)

/-- Goes back to the scope before the innermost value, whether or not the step failed. -/
def popScope (outcome : Outcome) : Outcome :=
  (outcome.1, { outcome.2 with scope := outcome.2.scope.pop })

end Outcome

/-- Runs a body for each item of a loop, from the one at `index` on. -/
def iterate (body : Machine → Outcome) (total : Nat) : Nat → List Value → Machine → Outcome
  | _, [], machine => machine.done
  | index, item :: rest, machine =>
      (body { machine with scope := machine.scope.pushItem item index total }).popScope.andThen
        (iterate body total (index + 1) rest)

/-! ## Blocks

What a block does is to run its bodies, in whatever way the statements without a body are run. -/

section Blocks

variable (perform : Statement → Machine → Outcome)

mutual

/-- Executes a statement: a block as its bodies are, any other statement as given. -/
def executeWith (statement : Statement) (machine : Machine) : Outcome :=
  match statement with
  | .choose branches none => executeBranchesWith branches Machine.done machine
  | .choose branches (some body) => executeBranchesWith branches (executeAllWith body) machine
  | .loop subject body =>
      let items := (machine.eval subject).items
      iterate (executeAllWith body) items.length 0 items machine
  | .within scope body =>
      (executeAllWith body
        { machine with scope := machine.scope.push (machine.eval scope) }).popScope
  | simple => perform simple machine
termination_by structural statement

/-- Executes statements one after another, up to the first that fails. -/
def executeAllWith (statements : List Statement) (machine : Machine) : Outcome :=
  match statements with
  | [] => machine.done
  | statement :: rest => (executeWith statement machine).andThen (executeAllWith rest)
termination_by structural statements

/-- Executes the first branch whose condition has a value, else `otherwise`. -/
def executeBranchesWith (branches : List Branch) (otherwise : Machine → Outcome)
    (machine : Machine) : Outcome :=
  match branches with
  | [] => otherwise machine
  | ⟨condition, body⟩ :: rest =>
      if (machine.eval condition).hasValue then executeAllWith body machine
      else executeBranchesWith rest otherwise machine
termination_by structural branches

end

end Blocks

/-! ## Programs -/

/-- Executes a statement that has no body. A block is none. -/
def perform (host : Host) (statement : Statement) (machine : Machine) : Outcome :=
  match statement with
  | .append target value => machine.append target value
  | .beginProps => { machine with frames := [] :: machine.frames }.done
  | .initProperty name => machine.setSlot name (.parts [])
  | .createProperty name => machine.createProperty name
  | .initChildren => machine.setSlot childrenProperty (.markup "")
  | .sealChildren => machine.sealChildren
  | .renderComponent name target => machine.render host name target
  | .choose _ _ | .loop _ _ | .within _ _ => machine.done

/-- Executes a statement. -/
def execute (host : Host) : Statement → Machine → Outcome :=
  executeWith (perform host)

/-- Executes the statements of a body. -/
def executeAll (host : Host) : List Statement → Machine → Outcome :=
  executeAllWith (perform host)

/-- Executes a choice. -/
def executeBranches (host : Host) : List Branch → (Machine → Outcome) → Machine → Outcome :=
  executeBranchesWith (perform host)

/-- Executes a program in a scope, from an empty page. -/
def runMachine (host : Host) (scope : Scope) (statements : List Statement) : Outcome :=
  executeAll host statements { scope }

/-- The page that a program writes in a scope. -/
def runProgram (host : Host) (scope : Scope) (statements : List Statement) :
    Except RenderError String :=
  match runMachine host scope statements with
  | (.ok (), machine) => .ok machine.page
  | (.error error, _) => .error error

end ComponentTemplates
