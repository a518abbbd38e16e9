/-
Module: ComponentTemplates.Proofs.Template.Execution
Purpose: Templates executed. All that the statements of a template do is to write to the page: they begin
  no properties and render no component, so that no host is asked and nothing can fail. What they
  write depends on the scope alone (`writesPage_of_parseTemplate`).
Main exports: WritesPage, WritesPage.andThen, WritesPage.inScope, WritesPage.iterate,
  writesPage_of_parseTemplate, runProgram_of_parseTemplate
-/
import ComponentTemplates.Proofs.Execution.Basic
import ComponentTemplates.Proofs.Template.Parser
import Mathlib.Tactic.Choose

namespace ComponentTemplates

/-- The code adds markup to the page, which the scope alone decides, and does nothing else: no host is
called and nothing fails. -/
def WritesPage (code : Host → Machine → Outcome) : Prop :=
  ∃ html : Scope → String, ∀ host machine,
    code host machine =
      ({ machine with page := machine.page ++ html machine.scope } : Machine).done

namespace WritesPage

variable {code first second : Host → Machine → Outcome}

theorem nothing : WritesPage fun _ machine => machine.done :=
  ⟨fun _ => "", fun _ machine => by rw [String.append_empty]⟩

theorem andThen (hfirst : WritesPage first) (hsecond : WritesPage second) :
    WritesPage fun host machine => (first host machine).andThen (second host) := by
  obtain ⟨html, hhtml⟩ := hfirst
  obtain ⟨more, hmore⟩ := hsecond
  refine ⟨fun scope => html scope ++ more scope, ?_⟩
  intro host machine
  dsimp only
  rw [hhtml, Outcome.done_andThen, hmore, String.append_assoc]

/-- What the code is may itself depend on the scope. -/
theorem ofScope (code : Scope → Host → Machine → Outcome) (h : ∀ scope, WritesPage (code scope)) :
    WritesPage fun host machine => code machine.scope host machine := by
  choose html hhtml using h
  refine ⟨fun scope => html scope scope, ?_⟩
  intro host machine
  exact hhtml machine.scope host machine

/-- Code in a scope that is left again. -/
theorem inScope (enter : Scope → Scope) (hpop : ∀ scope, (enter scope).pop = scope)
    (h : WritesPage code) :
    WritesPage fun host machine =>
      (code host { machine with scope := enter machine.scope }).popScope := by
  obtain ⟨html, hhtml⟩ := h
  refine ⟨fun scope => html (enter scope), ?_⟩
  intro host machine
  dsimp only
  rw [hhtml]
  unfold Outcome.popScope Machine.done
  dsimp only
  rw [hpop]

/-- A loop writes to the page if its body does. -/
theorem iterate (h : WritesPage code) (total : Nat) (items : List Value) (index : Nat) :
    WritesPage fun host machine => iterate (code host) total index items machine := by
  induction items generalizing index with
  | nil => exact nothing
  | cons item rest ih =>
      apply andThen
      · exact inScope (·.pushItem item index total)
          (fun scope => Scope.pop_pushItem scope item index total) h
      · exact ih (index + 1)

/-- A body writes to the page if each of its statements does. -/
theorem executeAll {body : List Statement}
    (h : ∀ statement ∈ body, WritesPage fun host => execute host statement) :
    WritesPage fun host => executeAll host body := by
  induction body with
  | nil => exact nothing
  | cons statement rest ih =>
      apply andThen
      · exact h statement (List.mem_cons_self ..)
      · exact ih fun other hother => h other (List.mem_cons_of_mem _ hother)

/-- Which branch is taken is settled by the scope. -/
theorem executeBranches {branches : List Branch}
    (h : ∀ branch ∈ branches, WritesPage fun host => ComponentTemplates.executeAll host branch.body)
    (hotherwise : WritesPage code) :
    WritesPage fun host machine => executeBranches host branches (code host) machine := by
  induction branches with
  | nil => exact hotherwise
  | cons branch rest ih =>
      have hbranch := h branch (List.mem_cons_self ..)
      have hrest := ih fun other hother => h other (List.mem_cons_of_mem _ hother)
      obtain ⟨condition, body⟩ := branch
      apply ofScope fun scope host machine =>
        if (scope.resolve condition.steps).hasValue then ComponentTemplates.executeAll host body machine
        else ComponentTemplates.executeBranches host rest (code host) machine
      intro scope
      by_cases hcondition : (scope.resolve condition.steps).hasValue = true
      · simp only [hcondition, if_true]
        exact hbranch
      · simp only [hcondition]
        exact hrest

end WritesPage

namespace Template

theorem writesPage_append (value : Expr) :
    WritesPage fun host => execute host (.append .page value) := by
  refine ⟨fun scope => ({ scope } : Machine).evalMarkup value, ?_⟩
  intro host machine
  cases value with
  | literal text => rfl
  | value lookup => rfl

/-- A block does nothing that its bodies do not. -/
theorem writesPage_keptByBlocks :
    KeptByBlocks fun statement => WritesPage fun host => execute host statement where
  choose {branches otherwise} hbranches hotherwise := by
    have hbodies : ∀ branch ∈ branches, WritesPage fun host => executeAll host branch.body :=
      fun branch hbranch => WritesPage.executeAll (hbranches branch hbranch)
    cases otherwise with
    | none => exact WritesPage.executeBranches hbodies WritesPage.nothing
    | some body =>
        exact WritesPage.executeBranches hbodies (WritesPage.executeAll (hotherwise body rfl))
  loop subject {body} hbody := by
    apply WritesPage.ofScope fun scope host machine =>
      iterate (executeAll host body) (scope.resolve subject.steps).items.length 0
        (scope.resolve subject.steps).items machine
    intro scope
    exact (WritesPage.executeAll hbody).iterate _ _ 0
  within subject {body} hbody := by
    apply WritesPage.inScope fun scope => scope.push (scope.resolve subject.steps)
    · intro scope
      exact Scope.pop_push scope _
    · exact WritesPage.executeAll hbody

/-- A template can be run in any scope and with any host. -/
theorem writesPage_of_parseTemplate {source : String} {statements : List Statement}
    (h : parseTemplate source = .ok statements) :
    WritesPage fun host => executeAll host statements := by
  obtain ⟨tokens, _, hparse⟩ := bind_eq_ok.1 h
  apply WritesPage.executeAll
  exact forall_of_parseTokens writesPage_keptByBlocks (fun _ _ => writesPage_append _)
    (fun _ => writesPage_append _) hparse

/-- A template succeeds with a page that depends on the scope only. -/
theorem runProgram_of_parseTemplate {source : String} {statements : List Statement}
    (h : parseTemplate source = .ok statements) :
    ∃ html : Scope → String, ∀ host scope, runProgram host scope statements = .ok (html scope) := by
  obtain ⟨html, hhtml⟩ := writesPage_of_parseTemplate h
  refine ⟨html, ?_⟩
  intro host scope
  have hrun : executeAll host statements { scope } = _ := hhtml host { scope }
  rw [runProgram, runMachine, hrun]
  exact congrArg Except.ok String.empty_append

end Template

end ComponentTemplates
