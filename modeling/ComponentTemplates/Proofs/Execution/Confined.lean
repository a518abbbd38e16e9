/-
Module: ComponentTemplates.Proofs.Execution.Confined
Purpose: What no program can do, be it made by a compiler or not, whatever the host answers and wherever
  the program fails. The values in scope are in the end what they were at the start: a loop and a scope
  block take back what they brought in, also when their body fails. And the page is never looked at:
  a program adds to its end, and how it ends and what else it leaves is the same for every page
  (`executeAll_scope_page`).
Main exports: Confined, Confined.inScope, Confined.iterate, confined_execute, confined_executeAll,
  executeAll_scope_page
-/
import ComponentTemplates.Proofs.Execution.Basic

namespace ComponentTemplates

/-- The machine with text in front of its page. -/
def Machine.behind (machine : Machine) (before : String) : Machine :=
  { machine with page := before ++ machine.page }

/-- The same end of a step, on a page with text in front. -/
def Outcome.behind (outcome : Outcome) (before : String) : Outcome :=
  (outcome.1, outcome.2.behind before)

/-- The code leaves the scope as it was, and it does the same behind any text that stands on the page,
whether or not it fails. -/
structure Confined (code : Machine → Outcome) : Prop where
  scope : ∀ machine, (code machine).2.scope = machine.scope
  page : ∀ machine before, code (machine.behind before) = (code machine).behind before

namespace Confined

variable {code next : Machine → Outcome}

theorem scope_of_done (h : Confined code) {machine after : Machine}
    (hdone : code machine = after.done) : after.scope = machine.scope := by
  rw [← h.scope machine, hdone]
  rfl

theorem done : Confined Machine.done :=
  ⟨fun _ => rfl, fun _ _ => rfl⟩

theorem fail (fault : ProgramFault) : Confined fun machine => machine.fail fault :=
  ⟨fun _ => rfl, fun _ _ => rfl⟩

/-- Confined steps in a row are confined. -/
theorem andThen (hcode : Confined code) (hnext : Confined next) :
    Confined fun machine => (code machine).andThen next := by
  constructor
  · intro machine
    have hscope := hcode.scope machine
    generalize code machine = outcome at hscope ⊢
    obtain ⟨status, after⟩ := outcome
    cases status with
    | ok _ => exact (hnext.scope after).trans hscope
    | error error => exact hscope
  · intro machine before
    rw [hcode.page]
    generalize code machine = outcome
    obtain ⟨status, after⟩ := outcome
    cases status with
    | ok _ => exact hnext.page after before
    | error error => rfl

/-- What the code is may itself depend on the scope, which the page has no part in. -/
theorem ofScope (code : Scope → Machine → Outcome) (h : ∀ scope, Confined (code scope)) :
    Confined fun machine => code machine.scope machine :=
  ⟨fun machine => (h machine.scope).scope machine,
    fun machine before => (h machine.scope).page machine before⟩

/-- Code in a scope that is left again, whether or not the code fails there. -/
theorem inScope (enter : Scope → Scope) (hleave : ∀ scope, (enter scope).pop = scope)
    (h : Confined code) :
    Confined fun machine => (code { machine with scope := enter machine.scope }).popScope := by
  constructor
  · intro machine
    calc (code { machine with scope := enter machine.scope }).2.scope.pop
        = (enter machine.scope).pop := by rw [h.scope]
      _ = machine.scope := hleave machine.scope
  · intro machine before
    exact congrArg Outcome.popScope (h.page { machine with scope := enter machine.scope } before)

/-- A loop whose body is confined in every iteration. -/
theorem iterate (h : Confined code) (total : Nat) (items : List Value) (index : Nat) :
    Confined (iterate code total index items) := by
  induction items generalizing index with
  | nil => exact done
  | cons item rest ih =>
      have hitem := inScope (·.pushItem item index total)
        (fun scope => Scope.pop_pushItem scope item index total) h
      exact hitem.andThen (ih (index + 1))

theorem updateFrame (change : Slots → Except ProgramFault Slots) :
    Confined fun machine => machine.updateFrame change := by
  constructor
  · intro machine
    unfold Machine.updateFrame
    split
    · rfl
    · split <;> rfl
  · intro machine before
    obtain ⟨scope, frames, page, calls⟩ := machine
    cases frames with
    | nil => rfl
    | cons frame outer =>
        unfold Machine.updateFrame Machine.behind
        dsimp only
        cases change frame with
        | ok frame => rfl
        | error fault => rfl

theorem setSlot (name : String) (slot : Slot) : Confined fun machine => machine.setSlot name slot :=
  updateFrame _

/-- Only here is the page written to, at its end. -/
theorem write (target : Target) (html : String) :
    Confined fun machine => machine.write target html := by
  cases target with
  | page =>
      refine ⟨fun _ => rfl, ?_⟩
      intro machine before
      unfold Machine.write Machine.behind Machine.done Outcome.behind
      dsimp only [Machine.behind]
      rw [String.append_assoc]
  | children => exact updateFrame _
  | property name => exact fail _

/-- An append is confined: it adds to the end of the page or leaves it alone. -/
theorem append (target : Target) (value : Expr) :
    Confined fun machine => machine.append target value := by
  cases target with
  | page =>
      exact ofScope (fun scope machine => machine.write .page (({ scope } : Machine).evalMarkup value))
        fun _ => write .page _
  | children =>
      exact ofScope
        (fun scope machine => machine.write .children (({ scope } : Machine).evalMarkup value))
        fun _ => write .children _
  | property name =>
      exact ofScope (fun scope machine => machine.addPart name (({ scope } : Machine).evalPart value))
        fun _ => updateFrame _

/-- The host is shown the scope and the properties, and not the page. -/
theorem render (host : Host) (component : String) (target : Target) :
    Confined fun machine => machine.render host component target := by
  constructor
  · intro machine
    unfold Machine.render
    split
    · rfl
    · dsimp only
      split
      · exact (write target _).scope _
      · rfl
  · intro machine before
    obtain ⟨scope, frames, page, calls⟩ := machine
    cases frames with
    | nil => rfl
    | cons frame outer =>
        let call : HostCall := { component, properties := Slots.properties frame, scope }
        unfold Machine.render Machine.behind
        dsimp only
        cases host call with
        | ok value =>
            exact (write target value.toHtml).page
              { scope, frames := outer, page, calls := calls ++ [call] } before
        | error error => rfl

end Confined

section Statements

variable (host : Host)

mutual

/-- Every statement is confined. -/
theorem confined_execute (statement : Statement) : Confined (execute host statement) := by
  cases statement with
  | append target value => exact Confined.append target value
  | choose branches otherwise =>
      cases otherwise with
      | none => exact confined_executeBranches branches Confined.done
      | some body => exact confined_executeBranches branches (confined_executeAll body)
  | loop subject body =>
      exact Confined.ofScope
        (fun scope => iterate (executeAll host body) (scope.resolve subject.steps).items.length 0
          (scope.resolve subject.steps).items)
        fun _ => (confined_executeAll body).iterate _ _ 0
  | within subject body =>
      exact Confined.inScope (fun scope => scope.push (scope.resolve subject.steps))
        (fun scope => Scope.pop_push scope _) (confined_executeAll body)
  | beginProps => exact ⟨fun _ => rfl, fun _ _ => rfl⟩
  | initProperty name => exact Confined.setSlot name (.parts [])
  | createProperty name => exact Confined.updateFrame _
  | initChildren => exact Confined.setSlot childrenProperty (.markup "")
  | sealChildren => exact Confined.updateFrame _
  | renderComponent name target => exact Confined.render host name target

/-- Every program is confined. -/
theorem confined_executeAll (statements : List Statement) :
    Confined (executeAll host statements) := by
  cases statements with
  | nil => exact Confined.done
  | cons statement rest => exact (confined_execute statement).andThen (confined_executeAll rest)

/-- Which branch is taken is settled by the scope. -/
theorem confined_executeBranches (branches : List Branch) {otherwise : Machine → Outcome}
    (hotherwise : Confined otherwise) : Confined (executeBranches host branches otherwise) := by
  cases branches with
  | nil => exact hotherwise
  | cons branch rest =>
      obtain ⟨condition, body⟩ := branch
      apply Confined.ofScope fun scope machine =>
        if (scope.resolve condition.steps).hasValue then executeAll host body machine
        else executeBranches host rest otherwise machine
      intro scope
      by_cases hcondition : (scope.resolve condition.steps).hasValue = true
      · simp only [hcondition, if_true]
        exact confined_executeAll body
      · simp only [hcondition]
        exact confined_executeBranches rest hotherwise

end

end Statements

/-- **Scope and page**: however a program ends, the scope is the one that it began in, and the page is the
page that it began with and behind it a text that is the same for every page. What else it leaves, the
maps of properties and the calls, and the error that stops it, if any, do not depend on the page either.
There is no premise on the program: it may be one that no compiler makes. -/
theorem executeAll_scope_page (host : Host) (statements : List Statement) (machine : Machine) :
    let outcome := executeAll host statements machine
    outcome.2.scope = machine.scope ∧
      ∃ more, ∀ page, executeAll host statements { machine with page } =
        (outcome.1, { outcome.2 with page := page ++ more }) := by
  intro outcome
  have hconfined := confined_executeAll host statements
  refine ⟨hconfined.scope machine, ?_⟩
  -- What is written on an empty page is what is written behind any other.
  let empty := executeAll host statements { machine with page := "" }
  have hpage : ∀ page, executeAll host statements { machine with page } = empty.behind page := by
    intro page
    have hbehind := hconfined.page { machine with page := "" } page
    rwa [Machine.behind, String.append_empty] at hbehind
  have houtcome : outcome = empty.behind machine.page := hpage machine.page
  refine ⟨empty.2.page, ?_⟩
  intro page
  rw [hpage page, houtcome]
  rfl

end ComponentTemplates
