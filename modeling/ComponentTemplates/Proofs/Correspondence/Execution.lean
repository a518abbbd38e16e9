/-
Module: ComponentTemplates.Proofs.Correspondence.Execution
Purpose: A program run from two matching states with matching hosts ends alike, in matching states. Every
  statement is taken once, for any correspondence; the premise on the program is that the literals
  which it writes as markup stand for themselves.
Main exports: Correspondence.MachinesMatch, Correspondence.OutcomesMatch, Correspondence.HostsMatch,
  Correspondence.executeAll_match, Correspondence.runProgram_match
-/
import ComponentTemplates.Proofs.Correspondence.Basic
import ComponentTemplates.Proofs.Execution.Basic
import ComponentTemplates.Proofs.Except
import ComponentTemplates.Proofs.Statement.Literals

namespace ComponentTemplates.Correspondence

variable (R : Correspondence)

/-- Properties that have come equally far, with parts, inner markup or values that are related. -/
inductive SlotsMatch : Slot → Slot → Prop where
  | parts {values values' : List Value} (h : List.Forall₂ R.value values values') :
      SlotsMatch (.parts values) (.parts values')
  | markup {html html' : String} (h : R.markup html html') :
      SlotsMatch (.markup html) (.markup html')
  | done {value value' : Value} (h : R.value value value') : SlotsMatch (.done value) (.done value')

/-- States that match in all that the rest of an execution can see. -/
structure MachinesMatch (left right : Machine) : Prop where
  scope : R.ScopesMatch left.scope right.scope
  frames : List.Forall₂ (Bindings.Related R.SlotsMatch) left.frames right.frames
  page : R.markup left.page right.page

/-- Both steps end alike, and in matching states even if they fail. -/
structure OutcomesMatch (left right : Outcome) : Prop where
  status : left.1 = right.1
  machine : R.MachinesMatch left.2 right.2

/-- Requests for the same component with related properties, out of matching scopes. -/
structure CallsMatch (left right : HostCall) : Prop where
  component : left.component = right.component
  properties : Bindings.Related R.value left.properties right.properties
  scope : R.ScopesMatch left.scope right.scope

/-- Hosts that answer matching requests alike. -/
def HostsMatch (left right : Host) : Prop :=
  ∀ call call', R.CallsMatch call call' → Alike R.value (left call) (right call')

/-- The literals that a program writes as markup stand for themselves. -/
abbrev Plain (body : List Statement) : Prop :=
  Statement.LiteralsAll (fun text => R.markup text text) body

variable {R}

theorem SlotsMatch.value {slot slot' : Slot} (h : R.SlotsMatch slot slot') (name : String) :
    R.value (slot.value name) (slot'.value name) := by
  cases h with
  | parts hvalues => exact R.createProperty name hvalues
  | markup hhtml => exact R.html hhtml
  | done hvalue => exact hvalue

/-- Related maps of slots are related as properties of a component. -/
theorem properties_match {slots slots' : Slots} (h : Bindings.Related R.SlotsMatch slots slots') :
    Bindings.Related R.value slots.properties slots'.properties := by
  induction h with
  | nil => exact .nil
  | @cons pair pair' rest rest' hpair _ ih =>
      obtain ⟨name, slot⟩ := pair
      obtain ⟨name', slot'⟩ := pair'
      obtain ⟨hname, hslot⟩ := hpair
      dsimp only at hname hslot
      subst hname
      exact .cons ⟨rfl, hslot.value name⟩ ih

section Slots

variable {slot slot' : Option Slot} {fault : ProgramFault}

/-- What is done to a property that has been begun, and to no other. -/
theorem onParts_match {next next' : List Value → Slots}
    (hnext : ∀ values values', List.Forall₂ R.value values values' →
      Bindings.Related R.SlotsMatch (next values) (next' values')) :
    Option.Rel R.SlotsMatch slot slot' → Alike (Bindings.Related R.SlotsMatch)
      (match slot with
        | some (.parts values) => .ok (next values)
        | _ => .error fault)
      (match slot' with
        | some (.parts values) => .ok (next' values)
        | _ => .error fault) := by
  intro h
  cases h with
  | none => exact .error fault
  | some hslot =>
      cases hslot with
      | parts hvalues => exact .ok (hnext _ _ hvalues)
      | markup _ => exact .error fault
      | done _ => exact .error fault

/-- What is done to inner markup that is being written, and to nothing else. -/
theorem onMarkup_match {next next' : String → Slots}
    (hnext : ∀ html html', R.markup html html' →
      Bindings.Related R.SlotsMatch (next html) (next' html')) :
    Option.Rel R.SlotsMatch slot slot' → Alike (Bindings.Related R.SlotsMatch)
      (match slot with
        | some (.markup html) => .ok (next html)
        | _ => .error fault)
      (match slot' with
        | some (.markup html) => .ok (next' html)
        | _ => .error fault) := by
  intro h
  cases h with
  | none => exact .error fault
  | some hslot =>
      cases hslot with
      | parts _ => exact .error fault
      | markup hhtml => exact .ok (hnext _ _ hhtml)
      | done _ => exact .error fault

end Slots

namespace OutcomesMatch

variable {left right : Outcome}

/-- Related outcomes that go on alike have related outcomes. -/
theorem andThen (h : R.OutcomesMatch left right) {next next' : Machine → Outcome}
    (hnext : ∀ machine machine', R.MachinesMatch machine machine' →
      R.OutcomesMatch (next machine) (next' machine')) :
    R.OutcomesMatch (left.andThen next) (right.andThen next') := by
  obtain ⟨result, machine⟩ := left
  obtain ⟨result', machine'⟩ := right
  obtain ⟨hstatus, hmachine⟩ := h
  dsimp only at hstatus hmachine
  subst hstatus
  cases result with
  | ok value => exact hnext machine machine' hmachine
  | error error => exact ⟨rfl, hmachine⟩

theorem popScope (h : R.OutcomesMatch left right) : R.OutcomesMatch left.popScope right.popScope :=
  ⟨h.status, h.machine.scope.pop, h.machine.frames, h.machine.page⟩

end OutcomesMatch

namespace MachinesMatch

variable {left right : Machine} (h : R.MachinesMatch left right)

include h

theorem done : R.OutcomesMatch left.done right.done :=
  ⟨rfl, h⟩

theorem fail (fault : ProgramFault) : R.OutcomesMatch (left.fail fault) (right.fail fault) :=
  ⟨rfl, h⟩

theorem eval (lookup : Lookup) : R.value (left.eval lookup) (right.eval lookup) :=
  h.scope.resolve lookup.steps

theorem evalPart (value : Expr) : R.value (left.evalPart value) (right.evalPart value) := by
  cases value with
  | literal text => exact R.text text
  | value lookup => exact h.eval lookup

/-- In either mode a lookup adds its value as markup. -/
theorem evalMarkup_value (lookup : Lookup) :
    R.markup (left.evalMarkup (.value lookup)) (right.evalMarkup (.value lookup)) := by
  have hmarkup := R.toHtml (h.eval lookup)
  obtain ⟨steps, mode⟩ := lookup
  cases mode with
  | render => exact hmarkup
  | object => exact hmarkup

/-- Changes of the map in sight that are alike have related outcomes. -/
theorem updateFrame {change change' : Slots → Except ProgramFault Slots}
    (hchange : ∀ frame frame', Bindings.Related R.SlotsMatch frame frame' →
      Alike (Bindings.Related R.SlotsMatch) (change frame) (change' frame')) :
    R.OutcomesMatch (left.updateFrame change) (right.updateFrame change') := by
  obtain ⟨scope, frames, page, calls⟩ := left
  obtain ⟨scope', frames', page', calls'⟩ := right
  obtain ⟨hscope, hframes, hpage⟩ := h
  cases hframes with
  | nil => exact ⟨rfl, hscope, .nil, hpage⟩
  | @cons frame frame' outer outer' hframe houter =>
      have hchanged := hchange frame frame' hframe
      unfold Machine.updateFrame
      dsimp only
      generalize change frame = result at hchanged
      generalize change' frame' = result' at hchanged
      cases hchanged with
      | ok hframe => exact ⟨rfl, hscope, .cons hframe houter, hpage⟩
      | error fault => exact ⟨rfl, hscope, .cons hframe houter, hpage⟩

theorem setSlot (name : String) {slot slot' : Slot} (hslot : R.SlotsMatch slot slot') :
    R.OutcomesMatch (left.setSlot name slot) (right.setSlot name slot') := by
  apply h.updateFrame
  intro frame frame' hframe
  exact .ok (hframe.insert name hslot)

theorem addPart (name : String) {part part' : Value} (hpart : R.value part part') :
    R.OutcomesMatch (left.addPart name part) (right.addPart name part') := by
  apply h.updateFrame
  intro frame frame' hframe
  apply onParts_match ?_ (hframe.get? name)
  intro values values' hvalues
  exact hframe.insert name (.parts (List.rel_append hvalues (.cons hpart .nil)))

theorem createProperty (name : String) :
    R.OutcomesMatch (left.createProperty name) (right.createProperty name) := by
  apply h.updateFrame
  intro frame frame' hframe
  apply onParts_match ?_ (hframe.get? name)
  intro values values' hvalues
  exact hframe.insert name (.done (R.createProperty name hvalues))

/-- Adding related markup to the inner markup has related outcomes. -/
theorem addChildren {html html' : String} (hhtml : R.markup html html') :
    R.OutcomesMatch (left.addChildren html) (right.addChildren html') := by
  apply h.updateFrame
  intro frame frame' hframe
  apply onMarkup_match ?_ (hframe.get? childrenProperty)
  intro old old' hold
  exact hframe.insert childrenProperty (.markup (R.markup_append hold hhtml))

theorem sealChildren : R.OutcomesMatch left.sealChildren right.sealChildren := by
  apply h.updateFrame
  intro frame frame' hframe
  apply onMarkup_match ?_ (hframe.get? childrenProperty)
  intro html html' hhtml
  exact hframe.insert childrenProperty (.done (R.html hhtml))

/-- Writing related markup to a target has related outcomes. -/
theorem write (target : Target) {html html' : String} (hhtml : R.markup html html') :
    R.OutcomesMatch (left.write target html) (right.write target html') := by
  cases target with
  | page => exact ⟨rfl, h.scope, h.frames, R.markup_append h.page hhtml⟩
  | children => exact h.addChildren hhtml
  | property name => exact h.fail _

/-- Appending an expression has related outcomes, if its text is related to itself. -/
theorem append {target : Target} {value : Expr}
    (hplain : (Statement.append target value).Literals fun text => R.markup text text) :
    R.OutcomesMatch (left.append target value) (right.append target value) := by
  have hmarkup : (∀ name, target ≠ .property name) →
      R.markup (left.evalMarkup value) (right.evalMarkup value) := by
    intro htarget
    cases value with
    | value lookup => exact h.evalMarkup_value lookup
    | literal text =>
        cases target with
        | page => exact hplain
        | children => exact hplain
        | property name => exact absurd rfl (htarget name)
  cases target with
  | page => exact h.write .page (hmarkup (by simp))
  | children => exact h.write .children (hmarkup (by simp))
  | property name => exact h.addPart name (h.evalPart value)

/-- Rendering a component has related outcomes, if the hosts have related answers. -/
theorem render {host host' : Host} (hhost : R.HostsMatch host host') (component : String)
    (target : Target) :
    R.OutcomesMatch (left.render host component target) (right.render host' component target) := by
  obtain ⟨scope, frames, page, calls⟩ := left
  obtain ⟨scope', frames', page', calls'⟩ := right
  obtain ⟨hscope, hframes, hpage⟩ := h
  cases hframes with
  | nil => exact ⟨rfl, hscope, .nil, hpage⟩
  | @cons frame frame' outer outer' hframe houter =>
      have hanswer := hhost
        { component, properties := Slots.properties frame, scope }
        { component, properties := Slots.properties frame', scope := scope' }
        ⟨rfl, properties_match hframe, hscope⟩
      unfold Machine.render
      dsimp only
      generalize host _ = answer at hanswer
      generalize host' _ = answer' at hanswer
      cases hanswer with
      | error error => exact ⟨rfl, hscope, houter, hpage⟩
      | ok hvalue =>
          apply MachinesMatch.write ?_ target (R.toHtml hvalue)
          exact ⟨hscope, houter, hpage⟩

end MachinesMatch

/-- A loop over related items, if the body keeps states matching. -/
theorem iterate_match {body body' : Machine → Outcome}
    (hbody : ∀ machine machine', R.MachinesMatch machine machine' →
      R.OutcomesMatch (body machine) (body' machine'))
    {items items' : List Value} (hitems : List.Forall₂ R.value items items') (total index : Nat)
    {left right : Machine} (h : R.MachinesMatch left right) :
    R.OutcomesMatch (iterate body total index items left)
      (iterate body' total index items' right) := by
  induction hitems generalizing index left right with
  | nil => exact h.done
  | cons hitem _ ih =>
      apply OutcomesMatch.andThen
      · apply OutcomesMatch.popScope
        apply hbody
        exact ⟨h.scope.pushItem hitem index total, h.frames, h.page⟩
      · intro machine machine' hmachine
        exact ih (index + 1) hmachine

section Statements

variable {host host' : Host}

mutual

/-- One statement keeps states matching. -/
theorem execute_match (hhost : R.HostsMatch host host') (statement : Statement)
    (hplain : statement.Literals fun text => R.markup text text) {left right : Machine}
    (h : R.MachinesMatch left right) :
    R.OutcomesMatch (execute host statement left) (execute host' statement right) := by
  cases statement with
  | append target value => exact h.append hplain
  | choose branches otherwise =>
      cases otherwise with
      | none =>
          apply executeBranches_match hhost branches hplain ?_ h
          intro machine machine' hmachine
          exact hmachine.done
      | some body =>
          apply executeBranches_match hhost branches hplain.1 ?_ h
          intro machine machine' hmachine
          exact executeAll_match hhost body hplain.2 hmachine
  | loop subject body =>
      have hitems := R.items (h.eval subject)
      change R.OutcomesMatch (iterate _ (left.eval subject).items.length 0 _ left)
        (iterate _ (right.eval subject).items.length 0 _ right)
      rw [hitems.length_eq]
      apply iterate_match ?_ hitems _ 0 h
      intro machine machine' hmachine
      exact executeAll_match hhost body hplain hmachine
  | within subject body =>
      apply OutcomesMatch.popScope
      apply executeAll_match hhost body hplain
      exact ⟨h.scope.push (h.eval subject), h.frames, h.page⟩
  | beginProps => exact ⟨rfl, h.scope, .cons .nil h.frames, h.page⟩
  | initProperty name => exact h.setSlot name (.parts .nil)
  | createProperty name => exact h.createProperty name
  | initChildren => exact h.setSlot childrenProperty (.markup R.markup_empty)
  | sealChildren => exact h.sealChildren
  | renderComponent name target => exact h.render hhost name target

/-- A program keeps states matching. -/
theorem executeAll_match (hhost : R.HostsMatch host host') (body : List Statement)
    (hplain : R.Plain body) {left right : Machine} (h : R.MachinesMatch left right) :
    R.OutcomesMatch (executeAll host body left) (executeAll host' body right) := by
  cases body with
  | nil => exact h.done
  | cons statement rest =>
      apply (execute_match hhost statement hplain.1 h).andThen
      intro machine machine' hmachine
      exact executeAll_match hhost rest hplain.2 hmachine

/-- The same branch is taken on both sides. -/
theorem executeBranches_match (hhost : R.HostsMatch host host') (branches : List Branch)
    (hplain : Statement.LiteralsBranches (fun text => R.markup text text) branches)
    {otherwise otherwise' : Machine → Outcome}
    (hotherwise : ∀ machine machine', R.MachinesMatch machine machine' →
      R.OutcomesMatch (otherwise machine) (otherwise' machine'))
    {left right : Machine} (h : R.MachinesMatch left right) :
    R.OutcomesMatch (executeBranches host branches otherwise left)
      (executeBranches host' branches otherwise' right) := by
  cases branches with
  | nil => exact hotherwise left right h
  | cons branch rest =>
      obtain ⟨condition, body⟩ := branch
      rw [executeBranches_cons, executeBranches_cons, R.hasValue (h.eval condition)]
      split
      · exact executeAll_match hhost body hplain.1 h
      · exact executeBranches_match hhost rest hplain.2 hotherwise h

end

/-- Programs run in matching scopes write related pages, or fail with the same error. -/
theorem runProgram_match (hhost : R.HostsMatch host host') {body : List Statement}
    (hplain : R.Plain body) {scope scope' : Scope} (hscope : R.ScopesMatch scope scope') :
    Alike R.markup (runProgram host scope body) (runProgram host' scope' body) := by
  have hstart : R.MachinesMatch { scope } { scope := scope' } := ⟨hscope, .nil, R.markup_empty⟩
  obtain ⟨hstatus, hmachine⟩ := executeAll_match hhost body hplain hstart
  unfold runProgram runMachine
  generalize executeAll host body { scope } = outcome at hstatus hmachine
  generalize executeAll host' body { scope := scope' } = outcome' at hstatus hmachine
  obtain ⟨result, machine⟩ := outcome
  obtain ⟨result', machine'⟩ := outcome'
  dsimp only at hstatus hmachine
  subst hstatus
  cases result with
  | ok value => exact .ok hmachine.page
  | error error => exact .error error

end Statements

end ComponentTemplates.Correspondence
