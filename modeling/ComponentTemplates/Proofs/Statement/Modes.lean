/-
Module: ComponentTemplates.Proofs.Statement.Modes
Purpose: The mode of a lookup makes no difference to an execution. A condition, a loop and a scope block
  look at the value in either mode, a property takes the value itself, and what is written as markup is
  the markup of the value whether it is made in advance or not. So the modes that a compiler chooses
  behind a guard, and the modes that generated code does not show, are of no consequence
  (`executeAll_modes`).
Main exports: Statement.inModeAll, Statement.SameButForModes, Fragment.asWrittenAll, executeAll_modes
-/
import ComponentTemplates.Invocation.Property
import ComponentTemplates.Proofs.Statement.Source

namespace ComponentTemplates

/-- The expression with its lookup in the given mode. -/
def Expr.inMode (mode : Lookup.Mode) : Expr → Expr
  | .literal text => .literal text
  | .value lookup => .value (lookup.withMode mode)

namespace Statement

/-- All lookups are put into the given mode. -/
def inOneMode (mode : Lookup.Mode) : LookupChange where
  condition lookup := lookup.withMode mode
  subject lookup := lookup.withMode mode
  value := Expr.inMode mode

/-- The program with all its lookups, at any depth, in the given mode. -/
def inModeAll (mode : Lookup.Mode) (body : List Statement) : List Statement :=
  mapLookupsAll (inOneMode mode) body

/-- Either program is the other with some of its lookups in another mode: put into one mode, they are the
same. -/
def SameButForModes (first second : List Statement) : Prop :=
  inModeAll .render first = inModeAll .render second

end Statement

/-! ## Executions -/

/-- To write a value as markup and to write the markup of the value are the same. -/
theorem Machine.evalMarkup_inMode (machine : Machine) (mode : Lookup.Mode) (value : Expr) :
    machine.evalMarkup (value.inMode mode) = machine.evalMarkup value := by
  cases value with
  | literal text => rfl
  | value lookup =>
      obtain ⟨steps, written⟩ := lookup
      cases mode <;> cases written <;> rfl

/-- A property takes the value itself. -/
theorem Machine.evalPart_inMode (machine : Machine) (mode : Lookup.Mode) (value : Expr) :
    machine.evalPart (value.inMode mode) = machine.evalPart value := by
  cases value with
  | literal text => rfl
  | value lookup => rfl

/-- An append does the same in every mode: its target decides what is asked of the value. -/
theorem Machine.append_inMode (machine : Machine) (mode : Lookup.Mode) (target : Target)
    (value : Expr) : machine.append target (value.inMode mode) = machine.append target value := by
  cases target with
  | page => rw [append, append, evalMarkup_inMode]
  | property name => rw [append, append, evalPart_inMode]
  | children => rw [append, append, evalMarkup_inMode]

section Execution

open Statement

variable (host : Host) (mode : Lookup.Mode)

/-- A mode is noticed nowhere. -/
theorem unnoticed_inOneMode : (inOneMode mode).Unnoticed (perform host) where
  condition _ _ := rfl
  subject _ _ := rfl
  value target value machine := machine.append_inMode mode target value

/-- A program does the same in any mode. -/
theorem executeAll_inModeAll (body : List Statement) :
    executeAll host (inModeAll mode body) = executeAll host body :=
  executeAllWith_mapLookupsAll (unnoticed_inOneMode host mode) body

/-- Programs that are the same but for modes do the same. -/
theorem executeAll_eq_of_sameButForModes {first second : List Statement}
    (h : SameButForModes first second) : executeAll host first = executeAll host second := by
  rw [← executeAll_inModeAll host .render first, h, executeAll_inModeAll]

/-- Programs that differ in the modes of conditions alone do the same. -/
theorem executeAll_eq_of_uniformAll_eq {first second : List Statement}
    (h : uniformAll first = uniformAll second) : executeAll host first = executeAll host second := by
  rw [← executeAll_uniformAll host first, h, executeAll_uniformAll]

end Execution

/-! ## The modes behind a guard -/

namespace Fragment

mutual

/-- The statements that append a part to a property, with each lookup in the mode that the attribute gives
it, behind a guard as well as outside. -/
def asWritten (property : String) : Fragment → List Statement
  | .literal text =>
      if text.isEmpty then [] else [.append (.property property) (.literal text)]
  | .value lookup => [.append (.property property) (.value lookup)]
  | .branch none body => asWrittenAll property body
  | .branch (some guard) body =>
      match asWrittenAll property body with
      | [] => []
      | statement :: rest => [.choose [⟨guard, statement :: rest⟩] none]
  | .opener _ => []
termination_by structural fragment => fragment

/-- The statements that append parts in order, in the modes that the attribute gives. -/
def asWrittenAll (property : String) : List Fragment → List Statement
  | [] => []
  | fragment :: rest => fragment.asWritten property ++ asWrittenAll property rest
termination_by structural fragments => fragments

end

open Statement

variable (mode : Lookup.Mode) (property : String)

mutual

/-- Parts behind a guard are assembled as those without, but for the mode. -/
theorem inModeAll_assemble (guarded : Bool) (fragment : Fragment) :
    inModeAll mode (fragment.assemble property guarded) =
      inModeAll mode (fragment.asWritten property) := by
  cases fragment with
  | literal text => rfl
  | value lookup => cases guarded <;> rfl
  | branch guard body =>
      cases guard with
      | none =>
          rw [assemble, asWritten]
          exact inModeAll_assembleAll guarded body
      | some guard =>
          have hbody := inModeAll_assembleAll true body
          rw [assemble, asWritten]
          cases hassembled : assembleAll property true body with
          | nil =>
              cases hwritten : asWrittenAll property body with
              | nil => rfl
              | cons first rest =>
                  rw [hassembled, hwritten] at hbody
                  cases hbody
          | cons statement others =>
              cases hwritten : asWrittenAll property body with
              | nil =>
                  rw [hassembled, hwritten] at hbody
                  cases hbody
              | cons first rest =>
                  rw [hassembled, hwritten] at hbody
                  simp only [inModeAll, mapLookupsAll, mapLookups, mapLookupsBranches] at hbody ⊢
                  rw [hbody]
  | opener kind => rfl

/-- What is assembled is what is written, but for modes. -/
theorem inModeAll_assembleAll (guarded : Bool) (fragments : List Fragment) :
    inModeAll mode (assembleAll property guarded fragments) =
      inModeAll mode (asWrittenAll property fragments) := by
  cases fragments with
  | nil => rfl
  | cons fragment rest =>
      have hfirst := inModeAll_assemble guarded fragment
      have hrest := inModeAll_assembleAll guarded rest
      unfold inModeAll at *
      rw [assembleAll, asWrittenAll, mapLookupsAll_append, mapLookupsAll_append, hfirst, hrest]

end

end Fragment

/-- **Modes**: programs that differ in the modes of their lookups alone, in any number of places, do the
same from any state and with any host: they end alike, in the same state and with the same calls. So a
property may be assembled with its lookups in the modes that the attribute gives them or, behind a
guard, in the mode of values; and programs that differ in the modes of conditions alone, which have the
same code, do the same. -/
theorem executeAll_modes (host : Host) :
    (∀ first second, Statement.SameButForModes first second →
      ∀ machine, executeAll host first machine = executeAll host second machine) ∧
    (∀ property guarded fragments machine,
      executeAll host (Fragment.assembleAll property guarded fragments) machine =
        executeAll host (Fragment.asWrittenAll property fragments) machine) ∧
    ∀ first second, Statement.uniformAll first = Statement.uniformAll second →
      Statement.toSource first = Statement.toSource second ∧
        ∀ machine, executeAll host first machine = executeAll host second machine := by
  refine ⟨?programs, ?guards, ?conditions⟩
  case programs =>
    intro first second h machine
    exact congrFun (executeAll_eq_of_sameButForModes host h) machine
  case guards =>
    intro property guarded fragments machine
    have hsame : Statement.SameButForModes (Fragment.assembleAll property guarded fragments)
        (Fragment.asWrittenAll property fragments) :=
      Fragment.inModeAll_assembleAll .render property guarded fragments
    exact congrFun (executeAll_eq_of_sameButForModes host hsame) machine
  case conditions =>
    intro first second h
    refine ⟨?_, congrFun (executeAll_eq_of_uniformAll_eq host h)⟩
    rw [Statement.toSource, Statement.toSource, ← Statement.emitAll_uniformAll first, h,
      Statement.emitAll_uniformAll second]

/-- A page that loops, asks and scopes, and hands a list to a component, with all its lookups in the given
modes: those that look at values, and those that write them. -/
def tourPage (look write : Lookup.Mode) : List Statement :=
  [.loop { steps := [⟨"Stops", []⟩], mode := look }
    [.choose [⟨{ steps := [⟨"Guide", []⟩], mode := look },
        [.within { steps := [⟨"Guide", []⟩], mode := look }
          [.append .page (.value { steps := [⟨"Name", []⟩], mode := write })]]⟩]
      (some [.beginProps, .initProperty "stops",
        .append (.property "stops") (.value { steps := [⟨"Top", []⟩, ⟨"Stops", []⟩], mode := write }),
        .createProperty "stops", .renderComponent "Map" .page])]]

/-- A host that answers with the number of items that each property has. -/
def countingHost : Host := fun call =>
  .ok (.text (call.component ++ ":" ++
    ",".intercalate (call.properties.map fun property => toString property.2.items.length)))

/-- The tour with its modes exchanged makes the same page. -/
theorem executeAll_modes_tour :
    let machine : Machine := { scope := Scope.ofRoot (.record [("Stops", .list
      [.record [("Guide", .record [("Name", .text "<")])], .record [("Guide", .text "")]])]) }
    let first := tourPage .object .render
    let second := tourPage .render .object
    Statement.SameButForModes first second ∧ first ≠ second ∧
      executeAll countingHost first machine = executeAll countingHost second machine ∧
      (executeAll countingHost first machine).2.page = "&lt;Map:2" := by
  intro machine first second
  have hsame : Statement.SameButForModes first second := rfl
  refine ⟨hsame, ?_, (executeAll_modes countingHost).1 first second hsame machine, ?_⟩
  · simp [first, second, tourPage]
  · decide +kernel

end ComponentTemplates
