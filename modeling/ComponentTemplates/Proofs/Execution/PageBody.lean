/-
Module: ComponentTemplates.Proofs.Execution.PageBody
Purpose: The code of page markup, with component tags in it to any depth, has an effect: where it stands
  makes no difference to what it calls and what it writes, and only the host can stop it. Main
  statement: the code of a tag makes the calls of its inner markup, renders the component with the
  properties that the tag describes, and writes the answer (`executeAll_compile`).
Main exports: PageBody, PageBody.hasEffect, effect_statements, executeAll_compile
-/
import ComponentTemplates.Proofs.Invocation.Effect

namespace ComponentTemplates

/-- The code of page markup: writes to the page, blocks of such code, and component tags whose own inner
markup is such code. -/
inductive PageBody : List Statement → Prop where
  | nil : PageBody []
  | append {rest : List Statement} (value : Expr) (hrest : PageBody rest) :
      PageBody (.append .page value :: rest)
  | choose {branches : List Branch} {otherwise : Option (List Statement)} {rest : List Statement}
      (hbranches : ∀ branch ∈ branches, PageBody branch.body)
      (hotherwise : ∀ body ∈ otherwise, PageBody body) (hrest : PageBody rest) :
      PageBody (.choose branches otherwise :: rest)
  | loop {body rest : List Statement} (subject : Lookup) (hbody : PageBody body)
      (hrest : PageBody rest) : PageBody (.loop subject body :: rest)
  | within {body rest : List Statement} (scope : Lookup) (hbody : PageBody body)
      (hrest : PageBody rest) : PageBody (.within scope body :: rest)
  | tag {production : Production} {invocation : Invocation} {rest : List Statement}
      (hcompile : production.compile = .ok invocation)
      (hinner : PageBody production.innerMarkup) (hrest : PageBody rest) :
      PageBody (invocation.statements ++ rest)

section Effect

variable {host : Host} {scope : Scope}

/-- A write to the page, sent where markup is taken, writes the same markup there. -/
theorem append_redirect (value : Expr) {target : Target} {machine : Machine}
    (haccepts : machine.Accepts target) :
    machine.append (target.redirect .page) value =
      machine.write target (({ scope := machine.scope } : Machine).evalMarkup value) := by
  have hmarkup : machine.evalMarkup value =
      ({ scope := machine.scope } : Machine).evalMarkup value := by
    cases value with
    | literal text => rfl
    | value lookup => rfl
  rw [← hmarkup]
  cases target with
  | page => rfl
  | children => rfl
  | property name => cases haccepts

/-- An append to the page has an effect wherever its markup is redirected to. -/
theorem hasEffect_append (value : Expr) :
    HasEffect host scope fun target machine => machine.append (target.redirect .page) value :=
  (HasEffect.write fun scope => ({ scope } : Machine).evalMarkup value).congr
    fun _ _ _ haccepts => append_redirect value haccepts

/-- Which branch is taken is settled by the scope. -/
theorem hasEffect_branches {otherwise : Target → Machine → Outcome} (branches : List Branch)
    (hbranches : ∀ branch ∈ branches, HasEffect host scope fun target =>
      executeAll host (Statement.retargetAll target branch.body))
    (hotherwise : HasEffect host scope otherwise) :
    HasEffect host scope fun target =>
      executeBranches host (Statement.retargetBranches target branches) (otherwise target) := by
  induction branches with
  | nil => exact hotherwise
  | cons branch rest ih =>
      have hrest := ih fun other hother => hbranches other (List.mem_cons_of_mem _ hother)
      have hbranch := hbranches branch (List.mem_cons_self ..)
      obtain ⟨condition, body⟩ := branch
      by_cases hcondition : (scope.resolve condition.steps).hasValue = true
      · apply hbranch.congr
        intro target machine hscope _
        subst hscope
        exact if_pos hcondition
      · apply hrest.congr
        intro target machine hscope _
        subst hscope
        exact if_neg hcondition

/-- Page markup has an effect in every scope. The induction is on how the markup is built; a tag's inner
markup has an effect already when the tag itself is reached. -/
theorem PageBody.hasEffect {statements : List Statement} (h : PageBody statements) (host : Host)
    (scope : Scope) :
    HasEffect host scope fun target =>
      executeAll host (Statement.retargetAll target statements) := by
  induction h generalizing scope with
  | nil => exact HasEffect.nothing
  | append value hrest ihrest => exact (hasEffect_append value).andThen (ihrest scope)
  | @choose branches otherwise rest hbranches hotherwise hrest ihbranches ihotherwise ihrest =>
      have hchoice : HasEffect host scope fun target =>
          execute host ((Statement.choose branches otherwise).retarget target) := by
        have hbodies : ∀ branch ∈ branches, HasEffect host scope fun target =>
            executeAll host (Statement.retargetAll target branch.body) :=
          fun branch hbranch => ihbranches branch hbranch scope
        cases otherwise with
        | none => exact hasEffect_branches branches hbodies HasEffect.nothing
        | some body => exact hasEffect_branches branches hbodies (ihotherwise body rfl scope)
      exact hchoice.andThen (ihrest scope)
  | @loop body rest subject hbody hrest ihbody ihrest =>
      have hloop : HasEffect host scope fun target =>
          execute host ((Statement.loop subject body).retarget target) := by
        have hitems := HasEffect.iterate (scope.resolve subject.steps).items.length
          (scope.resolve subject.steps).items 0 fun item index =>
            ihbody (scope.pushItem item index _)
        apply hitems.congr
        intro target machine hscope _
        subst hscope
        rfl
      exact hloop.andThen (ihrest scope)
  | @within body rest subject hbody hrest ihbody ihrest =>
      have hwithin : HasEffect host scope fun target =>
          execute host ((Statement.within subject body).retarget target) :=
        HasEffect.inScope (fun scope => scope.push (scope.resolve subject.steps))
          (Scope.pop_push scope _) (ihbody (scope.push (scope.resolve subject.steps)))
      exact hwithin.andThen (ihrest scope)
  | @tag production invocation rest hcompile hinner hrest ihinner ihrest =>
      obtain ⟨inner, hheeds, hleads⟩ := ihinner scope
      have htag : HasEffect host scope fun target =>
          executeAll host (Statement.retargetAll target invocation.statements) := by
        refine ⟨production.effect host scope inner, production.heeds_effect hheeds scope, ?_⟩
        intro target machine hscope haccepts
        exact Production.leads_effect hcompile hleads hscope haccepts
      apply (htag.andThen (ihrest scope)).congr
      intro target machine _ _
      rw [Statement.retargetAll_append, executeAll_append]

/-- Page markup does anywhere what it does by itself. -/
theorem PageBody.leads_effect {statements : List Statement} (h : PageBody statements) (host : Host)
    (scope : Scope) :
    (runMachine host scope statements).effect.Heeds host ∧
      ∀ target machine, machine.scope = scope → machine.Accepts target →
        (runMachine host scope statements).effect.Leads machine (machine.written target)
          (executeAll host (Statement.retargetAll target statements) machine) := by
  obtain ⟨effect, hheeds, hleads⟩ := h.hasEffect host scope
  have hpage : effect.Leads { scope } (({ scope } : Machine).written .page)
      (executeAll host (Statement.retargetAll .page statements) { scope }) :=
    hleads .page { scope } rfl trivial
  rw [Statement.retargetAll_page] at hpage
  change effect.Leads _ _ (runMachine host scope statements) at hpage
  rw [hpage.effect_eq]
  exact ⟨hheeds, hleads⟩

end Effect

/-- What the code of a tag does on an empty page. -/
theorem effect_statements {production : Production} {invocation : Invocation}
    (hcompile : production.compile = .ok invocation)
    (hinner : PageBody production.innerMarkup) (host : Host) (scope : Scope) :
    (runMachine host scope invocation.statements).effect =
      production.effect host scope (runMachine host scope production.innerMarkup).effect := by
  obtain ⟨_, hleads⟩ := hinner.leads_effect host scope
  have htag : (production.effect host scope
      (runMachine host scope production.innerMarkup).effect).Leads { scope }
      (({ scope } : Machine).written .page)
      (executeAll host (Statement.retargetAll .page invocation.statements) { scope }) :=
    Production.leads_effect hcompile hleads rfl trivial
  rw [Statement.retargetAll_page] at htag
  exact htag.effect_eq

/-- The code of a tag, run anywhere. It makes the calls that its inner markup makes by itself, then asks
for its component, with the properties that the tag describes, and writes the answer to the page; the
scope and the maps of properties that are open already stay as they are. A call that fails is the
last one, and its error is the only one there can be. -/
theorem executeAll_compile {production : Production} {invocation : Invocation}
    (hcompile : production.compile = .ok invocation)
    (hinner : PageBody production.innerMarkup) (host : Host) (machine : Machine) :
    let inner := runMachine host machine.scope production.innerMarkup
    let call := production.call machine.scope inner.2.page
    let outcome := executeAll host invocation.statements machine
    ∃ made, outcome.2.calls = machine.calls ++ made ∧ host.Decides made outcome.1 ∧
      match inner.1 with
      | .error error => made = inner.2.calls ∧ outcome.1 = .error error
      | .ok () => made = inner.2.calls ++ [call] ∧
          match host call with
          | .error error => outcome.1 = .error error
          | .ok value => outcome = (.ok (), { machine with
              page := machine.page ++ value.toHtml, calls := machine.calls ++ made }) := by
  intro inner call outcome
  obtain ⟨hheeds, hleads⟩ := hinner.leads_effect host machine.scope
  have hdecides := production.heeds_effect hheeds machine.scope
  have htag : (production.effect host machine.scope inner.effect).Leads machine
      (machine.written .page)
      (executeAll host (Statement.retargetAll .page invocation.statements) machine) :=
    Production.leads_effect hcompile hleads rfl trivial
  rw [Statement.retargetAll_page] at htag
  change Effect.Leads _ machine _ outcome at htag
  cases hstatus : inner.1 with
  | error error =>
      rw [Outcome.effect_of_error hstatus] at hdecides htag
      obtain ⟨herror, hmade⟩ := htag
      refine ⟨inner.2.calls, hmade, ?_, rfl, herror⟩
      rw [herror]
      exact hdecides
  | ok status =>
      rw [Outcome.effect_of_ok hstatus] at hdecides htag
      change Host.Decides host (inner.2.calls ++ [call]) ((host call).map Value.toHtml) at hdecides
      change Effect.Leads ⟨inner.2.calls ++ [call], (host call).map Value.toHtml⟩ machine _ outcome
        at htag
      cases hanswer : host call with
      | error error =>
          rw [hanswer] at hdecides htag
          obtain ⟨herror, hmade⟩ := htag
          refine ⟨inner.2.calls ++ [call], hmade, ?_, rfl, herror⟩
          rw [herror]
          exact hdecides
      | ok value =>
          rw [hanswer] at hdecides htag
          have hdone : outcome = (.ok (), { machine with
              page := machine.page ++ value.toHtml
              calls := machine.calls ++ (inner.2.calls ++ [call]) }) := htag
          refine ⟨inner.2.calls ++ [call], ?_, ?_, rfl, hdone⟩
          · rw [hdone]
          · rw [hdone]
            exact hdecides

/-- A tag with one property, which it reads from the scope. -/
def iconTag : Production :=
  { name := "Icon", attributes := [{ name := "kind", value := [.value (Lookup.ofPath "Kind")] }] }

/-- A tag that names one property twice and whose inner markup loops over another tag. -/
def cardTag : Production :=
  { name := "Card"
    attributes := [
      { name := "'class'", value := [.literal "a"] },
      { name := "title", value := [.literal "&", .branch (some (Lookup.ofPath "Title"))
        [.value (Lookup.ofPath "Title")]] },
      { name := "class", value := [.literal "b"] }]
    children := some [.loop (Lookup.ofPath "Items")
      ((iconTag.compile.toOption.map (·.statements)).getD [])] }

/-- A host that answers with the name of the component and of its first property. -/
def echoHost : Host := fun call =>
  .ok (.html (call.component ++ "(" ++ (Bindings.names call.properties).headD "" ++ ")"))

/-- A machine in the middle of a page, with a map of properties open. -/
def cardMachine : Machine :=
  { scope := Scope.ofRoot (.record [("Title", .text "<"), ("Items", .list [
      .record [("Kind", .text "x")], .record [("Kind", .text "y")]])])
    frames := [[("open", .parts [])]]
    page := "page:" }

/-- The card in the middle of a page: the two icons are rendered first, and then the card with the last
class that it is given. -/
theorem executeAll_compile_card :
    ∃ invocation made, cardTag.compile = .ok invocation ∧ PageBody cardTag.innerMarkup ∧
      made.map HostCall.component = ["Icon", "Icon", "Card"] ∧
      (made.map fun call => call.properties.map fun property => (property.1, property.2.toHtml)) =
        [[("kind", "x")], [("kind", "y")],
          [("class", "b"), ("title", "&amp;&lt;"), ("children", "Icon(kind)Icon(kind)")]] ∧
      executeAll echoHost invocation.statements cardMachine =
        (.ok (), { cardMachine with page := "page:Card(class)", calls := made }) := by
  have hicon : PageBody ((iconTag.compile.toOption.map (·.statements)).getD []) := by
    have htag := PageBody.tag (show iconTag.compile = .ok _ from rfl) .nil .nil
    rwa [List.append_nil] at htag
  have hinner : PageBody cardTag.innerMarkup := .loop _ hicon .nil
  obtain ⟨made, _, _, hcalls, hdone⟩ :=
    executeAll_compile (show cardTag.compile = .ok _ from rfl) hinner echoHost cardMachine
  refine ⟨_, made, rfl, hinner, ?_, ?_, hdone⟩
  · rw [hcalls]
    rfl
  · rw [hcalls]
    rfl

end ComponentTemplates
