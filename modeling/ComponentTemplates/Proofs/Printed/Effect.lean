/-
Module: ComponentTemplates.Proofs.Printed.Effect
Purpose: What is left of the effect of inner markup when it is printed. The first component tag in it that
  is reached binds the variable anew, so that the answer of its component has no place to go: the map
  of the tag around it is out of reach. So the code of a tag does what the interpreter does exactly if
  no component in its inner markup is answered (`effect_eq_iff_unanswered`).
Main exports: Effect.printed, Effect.printed_bind, Printed.HasEffect, PageBody.printed,
  Printed.effect_eq_iff_unanswered
-/
import ComponentTemplates.Proofs.Execution.PageBody
import ComponentTemplates.Proofs.Printed.Execution

namespace ComponentTemplates

namespace Effect

/-- The effect of rendering a component where its answer has no place to go. -/
def stray (host : Host) (call : HostCall) : Effect where
  calls := [call]
  result := do
    let _ ← host call
    .error (.invalidProgram .childrenNotBegun)

/-- What is left of an effect on inner markup when the code is printed: nothing comes after the first
call, and its answer goes nowhere. -/
def printed (host : Host) (effect : Effect) : Effect :=
  match effect.calls with
  | [] => effect
  | call :: _ => stray host call

variable (host : Host)

theorem stray_of_error {call : HostCall} {error : RenderError} (h : host call = .error error) :
    stray host call = { calls := [call], result := .error error } := by
  rw [stray, h]
  rfl

/-- An answer with no place to go stops the printed code. -/
theorem stray_of_ok {call : HostCall} {value : Value} (h : host call = .ok value) :
    stray host call =
      { calls := [call], result := .error (.invalidProgram .childrenNotBegun) } := by
  rw [stray, h]
  rfl

/-- Printed code never goes on behind a call. -/
theorem exists_stray (call : HostCall) :
    ∃ error, stray host call = { calls := [call], result := .error error } := by
  cases hanswer : host call with
  | error error => exact ⟨error, stray_of_error host hanswer⟩
  | ok value => exact ⟨_, stray_of_ok host hanswer⟩

/-- Nothing comes after a call in printed code. -/
theorem stray_bind (call : HostCall) (next : String → Effect) :
    (stray host call).bind next = stray host call := by
  obtain ⟨error, hstray⟩ := exists_stray host call
  rw [hstray]
  rfl

/-- What is left of two effects is what is left of each. -/
theorem printed_bind (first : Effect) (next : String → Effect) :
    (first.bind next).printed host =
      (first.printed host).bind fun html => (next html).printed host := by
  obtain ⟨calls, result⟩ := first
  cases calls with
  | cons call rest =>
      rw [printed, printed, stray_bind]
      cases result with
      | error error => rfl
      | ok html => rfl
  | nil =>
      cases result with
      | error error => rfl
      | ok html => simp [printed, bind]

/-- Printing an effect and putting markup in front of it may change places. -/
theorem printed_behind (effect : Effect) (html : String) :
    (effect.behind html).printed host = (effect.printed host).behind html := by
  obtain ⟨calls, result⟩ := effect
  cases calls with
  | nil => rfl
  | cons call rest =>
      obtain ⟨error, hstray⟩ := exists_stray host call
      change stray host call = (stray host call).behind html
      rw [hstray]
      rfl

/-- What is left of two effects in a row is what is left of each, in a row. -/
theorem printed_andThen (first second : Effect) :
    (first.andThen second).printed host = (first.printed host).andThen (second.printed host) := by
  rw [andThen, printed_bind, andThen]
  congr 1
  funext html
  exact printed_behind host second html

/-- Where the first call fails, the code ends there anyway. -/
theorem printed_eq_self {effect : Effect} (hheeds : effect.Heeds host)
    (h : ∀ call ∈ effect.calls.head?, ∃ error, host call = .error error) :
    effect.printed host = effect := by
  obtain ⟨calls, result⟩ := effect
  cases calls with
  | nil => rfl
  | cons call rest =>
      obtain ⟨error, herror⟩ := h call rfl
      change stray host call = _
      rw [stray_of_error host herror]
      cases result with
      | ok html =>
          obtain ⟨value, hvalue⟩ := hheeds call (List.mem_cons_self ..)
          exact absurd (herror.symm.trans hvalue) nofun
      | error other =>
          obtain ⟨earlier, last, hcalls, hlast, hearlier⟩ := hheeds
          cases earlier with
          | nil =>
              obtain ⟨rfl, rfl⟩ := List.cons.inj hcalls
              cases hlast.symm.trans herror
              rfl
          | cons first others =>
              obtain ⟨rfl, -⟩ := List.cons.inj hcalls
              obtain ⟨value, hvalue⟩ := hearlier call (List.mem_cons_self ..)
              exact absurd (herror.symm.trans hvalue) nofun

/-- No effect ends for the reason that an answer has no place to go. -/
theorem exists_error_of_stray_eq {call : HostCall} {effect : Effect} (h : stray host call = effect)
    (hheeds : effect.Heeds host) : ∃ error, host call = .error error := by
  cases hanswer : host call with
  | error error => exact ⟨error, rfl⟩
  | ok value =>
      rw [stray_of_ok host hanswer] at h
      subst h
      obtain ⟨earlier, last, hcalls, hlast, _⟩ := hheeds
      obtain ⟨rfl, rfl⟩ : earlier = [] ∧ last = call := by
        simpa using (List.append_eq_singleton_iff.1 hcalls.symm)
      exact absurd (hanswer.symm.trans hlast) nofun

end Effect

namespace Printed

/-- In the scope, code has an effect wherever its markup goes, and what is left of the effect where it
is printed inside a component tag. -/
def HasEffect (host : Host) (scope : Scope) (executed : Target → Machine → Outcome)
    (printed : Machine → Outcome) : Prop :=
  ∃ effect : Effect, effect.Heeds host ∧
    (∀ target, effect.Describes scope target (executed target)) ∧
    (effect.printed host).Describes scope .children printed

namespace HasEffect

variable {host : Host} {scope : Scope} {executed following : Target → Machine → Outcome}
  {printed next : Machine → Outcome}

theorem congr (h : HasEffect host scope executed printed)
    (hexecuted : ∀ target machine, machine.scope = scope → machine.Accepts target →
      following target machine = executed target machine)
    (hprinted : ∀ machine, machine.scope = scope → machine.Accepts .children →
      next machine = printed machine) : HasEffect host scope following next := by
  obtain ⟨effect, hheeds, hrun, hleft⟩ := h
  exact ⟨effect, hheeds, fun target => (hrun target).congr (hexecuted target),
    hleft.congr hprinted⟩

theorem nothing : HasEffect host scope (fun _ machine => machine.done) Machine.done :=
  ⟨Effect.nothing, nofun, fun _ => Effect.Describes.nothing, Effect.Describes.nothing⟩

/-- Writing markup has an effect, executed and printed: what it writes depends on the scope only. -/
theorem write (html : Scope → String) :
    HasEffect host scope (fun target machine => machine.write target (html machine.scope))
      fun machine => machine.write .children (html machine.scope) :=
  ⟨{ calls := [], result := .ok (html scope) }, nofun, fun _ => Effect.Describes.write html,
    Effect.Describes.write html⟩

/-- Two pieces of code in a row have an effect, executed and printed, if each has. -/
theorem andThen (hcode : HasEffect host scope executed printed)
    (hnext : HasEffect host scope following next) :
    HasEffect host scope
      (fun target machine => (executed target machine).andThen (following target))
      fun machine => (printed machine).andThen next := by
  obtain ⟨first, hfirst, hrun, hleft⟩ := hcode
  obtain ⟨second, hsecond, hrun', hleft'⟩ := hnext
  refine ⟨first.andThen second, hfirst.andThen hsecond,
    fun target => (hrun target).andThen (hrun' target), ?_⟩
  rw [Effect.printed_andThen]
  exact hleft.andThen hleft'

/-- A scope block has an effect, executed and printed, if its body has one in the inner scope. -/
theorem inScope (enter : Scope → Scope) (hleave : (enter scope).pop = scope)
    (hcode : HasEffect host (enter scope) executed printed) :
    HasEffect host scope
      (fun target machine => (executed target (machine.inScope (enter machine.scope))).popScope)
      fun machine => (printed (machine.inScope (enter machine.scope))).popScope := by
  obtain ⟨effect, hheeds, hrun, hleft⟩ := hcode
  exact ⟨effect, hheeds, fun target => (hrun target).inScope enter hleave,
    hleft.inScope enter hleave⟩

/-- A loop has an effect, executed and printed, if its body has one for each item. -/
theorem iterate (total : Nat) (items : List Value) (index : Nat)
    (hbody : ∀ item index, HasEffect host (scope.pushItem item index total) executed printed) :
    HasEffect host scope
      (fun target => ComponentTemplates.iterate (executed target) total index items)
      (ComponentTemplates.iterate printed total index items) := by
  induction items generalizing index with
  | nil => exact nothing
  | cons item rest ih =>
      have hitem := inScope (fun scope => scope.pushItem item index total)
        (Scope.pop_pushItem scope item index total) (hbody item index)
      exact hitem.andThen (ih (index + 1))

/-- Which branch is taken is settled by the scope, printed or not. -/
theorem branches (branches : List Branch)
    (hbranches : ∀ branch ∈ branches, HasEffect host scope
      (fun target =>
        ComponentTemplates.executeAll host (Statement.retargetAll target branch.body))
      (executeAll host (Statement.retargetAll .children branch.body)))
    (hotherwise : HasEffect host scope executed printed) :
    HasEffect host scope
      (fun target => ComponentTemplates.executeBranches host
        (Statement.retargetBranches target branches) (executed target))
      (executeBranches host (Statement.retargetBranches .children branches) printed) := by
  induction branches with
  | nil => exact hotherwise
  | cons branch rest ih =>
      have hrest := ih fun other hother => hbranches other (List.mem_cons_of_mem _ hother)
      have hbranch := hbranches branch (List.mem_cons_self ..)
      obtain ⟨condition, body⟩ := branch
      by_cases hcondition : (scope.resolve condition.steps).hasValue = true
      · apply hbranch.congr
        · rintro target machine rfl _
          exact if_pos hcondition
        · rintro machine rfl _
          exact if_pos hcondition
      · apply hrest.congr
        · rintro target machine rfl _
          exact if_neg hcondition
        · rintro machine rfl _
          exact if_neg hcondition

end HasEffect

section Tag

variable {production : Production} {invocation : Invocation} {host : Host} {machine : Machine}

/-- The printed block of the inner markup is the printed inner markup between opening and finishing its
slot. -/
theorem executeAll_compileChildren (body : List Statement) (frame : Slots) (outer : List Slots) :
    executeAll host (compileChildren body) { machine with frames := frame :: outer } =
      (executeAll host (Statement.retargetAll .children body) { machine with
        frames := Bindings.insert frame childrenProperty (.markup "") :: outer }).andThen
          Machine.sealChildren := by
  rw [compileChildren, List.cons_append, executeAll_cons, execute_initChildren]
  change Outcome.andThen (Machine.done _) _ = _
  rw [Outcome.done_andThen, executeAll_append]
  congr 1
  funext next
  rw [executeAll_singleton, execute_sealChildren]

/-- The inner markup of a tag, there or not, as it is printed. -/
theorem leads_childrenBlock {inner : Effect} {frame : Slots}
    (hnew : production.innerMarkup ≠ [] → Bindings.contains frame childrenProperty = false)
    (hinner : inner.Describes machine.scope .page
      (ComponentTemplates.executeAll host (Statement.retargetAll .page production.innerMarkup)))
    (hleft : (inner.printed host).Describes machine.scope .children
      (executeAll host (Statement.retargetAll .children production.innerMarkup)))
    (outer : List Slots) :
    (inner.printed host).Leads machine
      (fun html => { machine with frames := (frame ++ production.childrenSlots html) :: outer })
      (executeAll host production.childrenBlock { machine with frames := frame :: outer }) := by
  by_cases hempty : production.innerMarkup = []
  · rw [hempty] at hinner
    obtain rfl : inner = Effect.nothing := Effect.eq_nothing_of_describes_done hinner
    change executeAll host production.childrenBlock _ = (Machine.calling _ []).done
    simp only [Production.childrenBlock, Production.childrenSlots, hempty, if_true,
      List.append_nil, Machine.calling_nil]
    rfl
  · have hrun := Production.leads_children (hnew hempty) hleft outer
    rw [← executeAll_compileChildren] at hrun
    simpa only [Production.childrenBlock, Production.childrenSlots, hempty, if_false] using hrun

/-- Once the blocks of a tag have been run, no inner markup is being written. -/
theorem sealed_slots (production : Production) (scope : Scope) (html more : String) :
    Bindings.get? (production.slots scope production.propertyNames ++
      production.childrenSlots html) childrenProperty ≠ some (.markup more) := by
  intro hslot
  have hmem := Bindings.mem_of_get? hslot
  rcases List.mem_append.1 hmem with hmem | hmem
  · obtain ⟨name, _, heq⟩ := List.mem_map.1 hmem
    cases heq
  · unfold Production.childrenSlots at hmem
    split at hmem
    · cases hmem
    · cases List.mem_singleton.1 hmem

/-- Markup has no place to go where the inner markup is not being written. -/
theorem addChildren_of_sealed {frame : Slots} {outer : List Slots}
    (hsealed : ∀ html, Bindings.get? frame childrenProperty ≠ some (.markup html)) (more : String) :
    ({ machine with frames := frame :: outer } : Machine).addChildren more =
      ({ machine with frames := frame :: outer } : Machine).fail .childrenNotBegun := by
  unfold Machine.addChildren Machine.updateFrame
  dsimp only
  cases hslot : Bindings.get? frame childrenProperty with
  | none => rfl
  | some slot =>
      cases slot with
      | parts values => rfl
      | markup html => exact absurd hslot (hsealed html)
      | done value => rfl

/-- A component inside another one's inner markup: its answer has no place to go. -/
theorem leads_stray {frame : Slots} {outer : List Slots} {call : HostCall}
    (hproperties : Slots.properties frame = call.properties) (hscope : machine.scope = call.scope)
    (hsealed : ∀ html, Bindings.get? frame childrenProperty ≠ some (.markup html))
    (arrive : String → Machine) :
    (Effect.stray host call).Leads { machine with frames := frame :: outer } arrive
      (execute host (.renderComponent call.component .children)
        { machine with frames := frame :: outer }) := by
  obtain ⟨component, properties, scope⟩ := call
  dsimp only at hproperties hscope ⊢
  subst hproperties hscope
  rw [execute_renderComponent host component (by decide)]
  unfold Addition.run
  dsimp only
  cases hanswer : host ⟨component, Slots.properties frame, machine.scope⟩ with
  | error error =>
      rw [Effect.stray_of_error host hanswer]
      exact ⟨rfl, rfl⟩
  | ok value =>
      rw [Effect.stray_of_ok host hanswer]
      change Effect.Leads _ _ arrive (Outcome.andThen (Machine.addChildren
        { machine.calling _ with frames := frame :: outer } value.toHtml) _)
      rw [addChildren_of_sealed hsealed]
      exact ⟨rfl, rfl⟩

/-- A component on the page: the answer is written, and the variable is unbound. -/
theorem leads_rendering {frame : Slots} {outer : List Slots} {call : HostCall}
    (hproperties : Slots.properties frame = call.properties) (hscope : machine.scope = call.scope) :
    (Production.rendering host call).Leads { machine with frames := frame :: outer }
      (fun html => { machine with frames := [], page := machine.page ++ html })
      (execute host (.renderComponent call.component .page)
        { machine with frames := frame :: outer }) := by
  obtain ⟨component, properties, scope⟩ := call
  dsimp only at hproperties hscope ⊢
  subst hproperties hscope
  rw [execute_renderComponent host component (by decide)]
  unfold Addition.run
  dsimp only
  cases hanswer : host ⟨component, Slots.properties frame, machine.scope⟩ with
  | error error =>
      rw [Production.rendering_of_error hanswer]
      exact ⟨rfl, rfl⟩
  | ok value =>
      rw [Production.rendering_of_ok hanswer]
      rfl

/-- The code of a tag, as it is printed, up to the rendering of its component. -/
theorem leads_tag (hcompile : production.compile = .ok invocation) {inner : Effect}
    (hinner : inner.Describes machine.scope .page
      (ComponentTemplates.executeAll host (Statement.retargetAll .page production.innerMarkup)))
    (hleft : (inner.printed host).Describes machine.scope .children
      (executeAll host (Statement.retargetAll .children production.innerMarkup)))
    {target : Target} {last : String → Effect} {arrive : String → Machine}
    (hlast : ∀ html calls,
      let after := ({ machine with
        frames := [production.slots machine.scope production.propertyNames ++
          production.childrenSlots html] } : Machine).calling calls
      (last html).Leads after (fun more => (arrive more).calling calls)
        (execute host (.renderComponent production.name target) after)) :
    ((inner.printed host).bind last).Leads machine arrive
      (executeAll host (Statement.retargetAll target invocation.statements) machine) := by
  have hnew : production.innerMarkup ≠ [] → Bindings.contains
      (production.slots machine.scope production.propertyNames) childrenProperty = false := by
    intro hne
    rw [← Bool.not_eq_true, Production.contains_slots]
    exact (Production.statements_of_compile hcompile).2 hne
  rw [Production.retargetAll_statements target hcompile, executeAll_cons]
  -- The tag's first line leaves its own map in the variable, whatever was in it.
  change ((inner.printed host).bind last).Leads machine arrive
    (Outcome.andThen (Machine.done { machine with frames := [[]] }) _)
  rw [Outcome.done_andThen, List.append_assoc, executeAll_append, executeAll_propertyBlocks,
    Production.execute_propertyNames production host machine [], Outcome.done_andThen,
    executeAll_append]
  apply Effect.Leads.bind (leads_childrenBlock hnew hinner hleft [])
  · intro html
    rfl
  · intro html
    rw [executeAll_singleton]
    exact hlast html (inner.printed host).calls

/-- A tag inside inner markup: what is left of its effect as well. -/
theorem describes_tag (hcompile : production.compile = .ok invocation) {scope : Scope}
    {inner : Effect}
    (hinner : inner.Describes scope .page
      (ComponentTemplates.executeAll host (Statement.retargetAll .page production.innerMarkup)))
    (hleft : (inner.printed host).Describes scope .children
      (executeAll host (Statement.retargetAll .children production.innerMarkup))) :
    ((production.effect host scope inner).printed host).Describes scope .children
      (executeAll host (Statement.retargetAll .children invocation.statements)) := by
  rintro machine rfl _
  rw [Production.effect, Effect.printed_bind]
  apply leads_tag hcompile hinner hleft
  intro html calls
  have hscope : (machine.calling calls).scope = (production.call machine.scope html).scope := rfl
  exact leads_stray (Production.properties_slots production machine.scope html) hscope
    (sealed_slots production machine.scope html) _

end Tag

end Printed

/-- Page markup inside a component tag, as it is printed: what is left of its effect. -/
theorem PageBody.printed {statements : List Statement} (h : PageBody statements) (host : Host)
    (scope : Scope) :
    Printed.HasEffect host scope
      (fun target => executeAll host (Statement.retargetAll target statements))
      (Printed.executeAll host (Statement.retargetAll .children statements)) := by
  induction h generalizing scope with
  | nil => exact .nothing
  | append value hrest ihrest =>
      have hwrite : Printed.HasEffect host scope
          (fun target => execute host ((Statement.append .page value).retarget target))
          (Printed.execute host ((Statement.append .page value).retarget .children)) := by
        apply (Printed.HasEffect.write fun scope => ({ scope } : Machine).evalMarkup value).congr
        · intro target machine _ haccepts
          exact append_redirect value haccepts
        · intro machine _ haccepts
          exact (Printed.execute_append host .children value machine).trans
            (append_redirect value haccepts)
      exact hwrite.andThen (ihrest scope)
  | @choose branches otherwise rest hbranches hotherwise hrest ihbranches ihotherwise ihrest =>
      have hchoice : Printed.HasEffect host scope
          (fun target => execute host ((Statement.choose branches otherwise).retarget target))
          (Printed.execute host ((Statement.choose branches otherwise).retarget .children)) := by
        have hbodies := fun branch hbranch => ihbranches branch hbranch scope
        cases otherwise with
        | none => exact .branches branches hbodies .nothing
        | some body => exact .branches branches hbodies (ihotherwise body rfl scope)
      exact hchoice.andThen (ihrest scope)
  | @loop body rest subject hbody hrest ihbody ihrest =>
      have hloop : Printed.HasEffect host scope
          (fun target => execute host ((Statement.loop subject body).retarget target))
          (Printed.execute host ((Statement.loop subject body).retarget .children)) := by
        have hitems := Printed.HasEffect.iterate (scope.resolve subject.steps).items.length
          (scope.resolve subject.steps).items 0 fun item index =>
            ihbody (scope.pushItem item index _)
        apply hitems.congr
        · rintro target machine rfl _
          rfl
        · rintro machine rfl _
          rfl
      exact hloop.andThen (ihrest scope)
  | @within body rest subject hbody hrest ihbody ihrest =>
      have hwithin : Printed.HasEffect host scope
          (fun target => execute host ((Statement.within subject body).retarget target))
          (Printed.execute host ((Statement.within subject body).retarget .children)) :=
        .inScope (fun scope => scope.push (scope.resolve subject.steps))
          (Scope.pop_push scope _) (ihbody (scope.push (scope.resolve subject.steps)))
      exact hwithin.andThen (ihrest scope)
  | @tag production invocation rest hcompile hinner hrest ihinner ihrest =>
      obtain ⟨inner, hheeds, hrun, hleft⟩ := ihinner scope
      have htag : Printed.HasEffect host scope
          (fun target => executeAll host (Statement.retargetAll target invocation.statements))
          (Printed.executeAll host (Statement.retargetAll .children invocation.statements)) := by
        refine ⟨production.effect host scope inner, production.heeds_effect hheeds scope, ?_,
          Printed.describes_tag hcompile (hrun .page) hleft⟩
        intro target machine hscope haccepts
        exact Production.leads_effect hcompile hrun hscope haccepts
      apply (htag.andThen (ihrest scope)).congr
      · intro target machine _ _
        rw [Statement.retargetAll_append, executeAll_append]
      · intro machine _ _
        rw [Statement.retargetAll_append, Printed.executeAll_append]

namespace Printed

section Compile

variable {production : Production} {invocation : Invocation}
  (hcompile : production.compile = .ok invocation) (hinner : PageBody production.innerMarkup)
  (host : Host) (scope : Scope)

include hcompile hinner

/-- What the code of a tag does on an empty page, executed and printed. -/
theorem effect_compile :
    let inner := (runMachine host scope production.innerMarkup).effect
    (runMachine host scope invocation.statements).effect = production.effect host scope inner ∧
      (executeAll host invocation.statements { scope }).effect =
        production.effect host scope (inner.printed host) ∧
      inner.Heeds host := by
  intro inner
  obtain ⟨effect, hheeds, hrun, hleft⟩ := hinner.printed host scope
  have hpage : effect.Leads { scope } (({ scope } : Machine).written .page)
      (ComponentTemplates.executeAll host (Statement.retargetAll .page production.innerMarkup)
        { scope }) := hrun .page { scope } rfl trivial
  rw [Statement.retargetAll_page] at hpage
  -- A run on an empty page shows the effect, so there is no choice of it.
  obtain rfl : inner = effect := hpage.effect_eq
  have hprinted : (production.effect host scope (inner.printed host)).Leads { scope }
      (({ scope } : Machine).written .page)
      (executeAll host (Statement.retargetAll .page invocation.statements) { scope }) := by
    apply leads_tag hcompile (hrun .page) hleft
    intro html calls
    have hscope : (({ scope } : Machine).calling calls).scope =
        (production.call scope html).scope := rfl
    exact leads_rendering (Production.properties_slots production scope html) hscope
  rw [Statement.retargetAll_page] at hprinted
  exact ⟨effect_statements hcompile hinner host scope, hprinted.effect_eq, hheeds⟩

/-- Once a component is asked for in the inner markup, nothing else is. -/
theorem effect_of_call {call : HostCall}
    (hcall : call ∈ (runMachine host scope production.innerMarkup).2.calls.head?) :
    (executeAll host invocation.statements { scope }).effect = Effect.stray host call := by
  obtain ⟨_, hprinted, _⟩ := effect_compile hcompile hinner host scope
  obtain ⟨rest, hcalls⟩ := List.head?_eq_some_iff.1 hcall
  have hleft : (runMachine host scope production.innerMarkup).effect.printed host =
      Effect.stray host call := by
    rw [Effect.printed, Outcome.effect, hcalls]
  rw [hprinted, hleft, Production.effect, Effect.stray_bind]

end Compile

/-- **Printed tags**: the lines of a tag's code are those of its statements. What they do is what the
interpreter does exactly if the first component that is asked for in the inner markup, if any is,
fails. For if it is answered, the map of the tag around it is out of reach, and the code stops there:
it has made that one call, and the interpreter goes on. -/
theorem effect_eq_iff_unanswered {production : Production} {invocation : Invocation}
    (hcompile : production.compile = .ok invocation)
    (hinner : PageBody production.innerMarkup) (host : Host) (scope : Scope) :
    let inner := runMachine host scope production.innerMarkup
    let executed := runMachine host scope invocation.statements
    let printed := executeAll host invocation.statements { scope }
    textLines invocation.toSource.toList =
        (Statement.linesAll invocation.statements).map (fun line => line.source.toList) ∧
      (printed.effect = executed.effect ↔
        ∀ call ∈ inner.2.calls.head?, ∃ error, host call = .error error) ∧
      ∀ call ∈ inner.2.calls.head?, ∀ value, host call = .ok value →
        printed.2.calls = [call] ∧
          printed.1 = .error (.invalidProgram .childrenNotBegun) := by
  intro inner executed printed
  obtain ⟨hexecuted, hprinted, hheeds⟩ := effect_compile hcompile hinner host scope
  refine ⟨textLines_toSource invocation.statements, ⟨?agree, ?same⟩, ?stop⟩
  case agree =>
    intro hsame call hcall
    have hstray := effect_of_call hcompile hinner host scope hcall
    apply Effect.exists_error_of_stray_eq host (hstray.symm.trans hsame)
    rw [hexecuted]
    exact production.heeds_effect hheeds scope
  case same =>
    intro hunanswered
    rw [hexecuted, hprinted, Effect.printed_eq_self host hheeds hunanswered]
  case stop =>
    intro call hcall value hvalue
    have hstray := effect_of_call hcompile hinner host scope hcall
    exact Outcome.status_of_effect (hstray.trans (Effect.stray_of_ok host hvalue))

/-- A tag whose inner markup is a text and a value. -/
def quoteTag : Production :=
  { name := "Quote"
    attributes := [{ name := "by", value := [.value (Lookup.ofPath "Author")] }]
    children := some
      [.append .page (.literal "&ldquo;"), .append .page (.value (Lookup.ofPath "Text"))] }

/-- There is no tag inside the quotation, so its code, printed, does what the tag does. -/
theorem effect_eq_iff_unanswered_quote :
    let scope := Scope.ofRoot (.record [("Author", .text "X"), ("Text", .text "<")])
    ∃ invocation, quoteTag.compile = .ok invocation ∧ PageBody quoteTag.innerMarkup ∧
      (executeAll echoHost invocation.statements { scope }).effect =
        (runMachine echoHost scope invocation.statements).effect ∧
      (runMachine echoHost scope invocation.statements).2.calls.map HostCall.component =
        ["Quote"] := by
  intro scope
  have hinner : PageBody quoteTag.innerMarkup := .append _ (.append _ .nil)
  obtain ⟨_, hagree, _⟩ := effect_eq_iff_unanswered (show quoteTag.compile = .ok _ from rfl) hinner
    echoHost scope
  have hcalls : (runMachine echoHost scope quoteTag.innerMarkup).2.calls.head? = none :=
    Option.isNone_iff_eq_none.1 (by decide +kernel)
  refine ⟨_, rfl, hinner, hagree.2 ?_, by decide +kernel⟩
  intro call hcall
  rw [hcalls] at hcall
  cases hcall

/-- A tag with a tag in its inner markup. -/
def nestedTag : Production :=
  { name := "Card", children := some [.beginProps, .renderComponent "Icon" .page] }

/-- The inner tag's lines take the outer tag's map away. -/
theorem effect_nestedTag :
    let scope := Scope.ofRoot .null
    ∃ invocation, nestedTag.compile = .ok invocation ∧ PageBody nestedTag.innerMarkup ∧
      invocation.toSource = "props = [];\nprops['children'] = '';\n" ++
        "props = [];\nprops['children'] .= component.render('Icon', props, scope);\nunset(props);\n" ++
        "props['children'] = html_fragment(props['children']);\n" ++
        "page .= component.render('Card', props, scope);\nunset(props);" ∧
      (runMachine echoHost scope invocation.statements).2.calls.map HostCall.component =
        ["Icon", "Card"] ∧
      (executeAll echoHost invocation.statements { scope }).2.calls.map HostCall.component =
        ["Icon"] ∧
      (executeAll echoHost invocation.statements { scope }).1 =
        .error (.invalidProgram .childrenNotBegun) := by
  have hicon : ({ name := "Icon" } : Production).compile =
      .ok { component := "Icon", statements := [.beginProps, .renderComponent "Icon" .page] } := rfl
  exact ⟨_, rfl, .tag hicon .nil .nil, by decide +kernel, rfl, rfl, rfl⟩

end Printed

end ComponentTemplates
