/-
Module: ComponentTemplates.Proofs.Invocation.Effect
Purpose: What a tag means, said without its code: the properties that its component gets, in order, and
  the call that renders it, given the markup that its inner markup amounts to. Main statement: the code
  of a tag does that and nothing else, given that its inner markup has an effect (`leads_effect`).
Main exports: Production.value, Production.properties, Production.call, Production.effect,
  Production.leads_effect
-/
import ComponentTemplates.Proofs.Execution.Effect
import ComponentTemplates.Proofs.Invocation.Parts
import ComponentTemplates.Proofs.Invocation.Shape

namespace ComponentTemplates

namespace Production

/-- The value of one of the properties, made of the parts that it is given. -/
def value (production : Production) (scope : Scope) (name : String) : Value :=
  Value.createProperty name (Fragment.partsAll scope (production.given name))

/-- The properties of the component: the given ones in the order of their first mention, and then the
inner markup, if there is any. -/
def properties (production : Production) (scope : Scope) (html : String) : Properties :=
  production.propertyNames.map (fun name => (name, production.value scope name)) ++
    if production.innerMarkup = [] then [] else [(childrenProperty, .html html)]

/-- The request to render the component. -/
def call (production : Production) (scope : Scope) (html : String) : HostCall :=
  { component := production.name, properties := production.properties scope html, scope }

/-- The effect of rendering a component: the call, and the answer as markup. -/
def rendering (host : Host) (call : HostCall) : Effect :=
  { calls := [call], result := (host call).map Value.toHtml }

theorem rendering_of_error {host : Host} {call : HostCall} {error : RenderError}
    (h : host call = .error error) :
    rendering host call = { calls := [call], result := .error error } := by
  rw [rendering, h]
  rfl

/-- A component that the host renders has its markup as effect. -/
theorem rendering_of_ok {host : Host} {call : HostCall} {value : Value}
    (h : host call = .ok value) :
    rendering host call = { calls := [call], result := .ok value.toHtml } := by
  rw [rendering, h]
  rfl

/-- The effect of a tag whose inner markup has the given effect: all that the inner markup does, and
then the rendering of the component. -/
def effect (production : Production) (host : Host) (scope : Scope) (inner : Effect) : Effect :=
  inner.bind fun html => rendering host (production.call scope html)

theorem heeds_rendering (host : Host) (call : HostCall) : (rendering host call).Heeds host := by
  unfold Effect.Heeds rendering
  cases hanswer : host call with
  | error error =>
      refine ⟨[], call, rfl, hanswer, ?_⟩
      intro earlier hearlier
      cases hearlier
  | ok value =>
      intro made hmade
      rw [List.mem_singleton.1 hmade]
      exact ⟨value, hanswer⟩

/-- The host decides the effect of a tag if it decides that of its inner markup. -/
theorem heeds_effect (production : Production) {host : Host} {inner : Effect}
    (hinner : inner.Heeds host) (scope : Scope) : (production.effect host scope inner).Heeds host :=
  hinner.bind fun html => heeds_rendering host (production.call scope html)

/-- The slots of the given properties once all their blocks have been run. -/
def slots (production : Production) (scope : Scope) (names : List String) : Slots :=
  names.map fun name => (name, .done (production.value scope name))

theorem contains_slots (production : Production) (scope : Scope) (names : List String)
    (name : String) :
    Bindings.contains (production.slots scope names) name = true ↔ name ∈ names := by
  rw [Bindings.contains_iff_mem_names]
  simp [slots, Bindings.names]

section Run

variable (production : Production) (host : Host) (machine : Machine)

/-- The blocks of distinct properties, run one after another, bind them in this order. -/
theorem execute_propertyBlocks (names : List String) (hdistinct : names.Nodup) (frame : Slots)
    (outer : List Slots) (hfresh : ∀ name ∈ names, Bindings.contains frame name = false) :
    executeAll host (names.flatMap production.propertyBlock)
        { machine with frames := frame :: outer } =
      ({ machine with
        frames := (frame ++ production.slots machine.scope names) :: outer } : Machine).done := by
  induction names generalizing frame with
  | nil => simp [slots]
  | cons name rest ih =>
      obtain ⟨hname, hrest⟩ := List.nodup_cons.1 hdistinct
      have hnew := hfresh name (List.mem_cons_self ..)
      have hnext : ∀ other ∈ rest, Bindings.contains
          (frame ++ [(name, Slot.done (production.value machine.scope name))]) other = false := by
        intro other hother
        have hne : name ≠ other := fun heq => hname (heq ▸ hother)
        have hold := hfresh other (List.mem_cons_of_mem _ hother)
        simp only [Bindings.contains, Option.isSome_eq_false_iff, Option.isNone_iff_eq_none]
          at hold ⊢
        rw [Bindings.get?_append, hold, Bindings.get?_cons, if_neg hne]
        rfl
      rw [List.flatMap_cons, executeAll_append, propertyBlock,
        execute_normalizeProperty host name _ machine frame outer, Outcome.done_andThen,
        Bindings.insert_of_not_contains hnew]
      exact (ih hrest _ hnext).trans (by simp [slots, value])

/-- The blocks of all properties, run in a fresh map, fill a slot for each property. -/
theorem execute_propertyNames (outer : List Slots) :
    executeAll host (production.propertyNames.flatMap production.propertyBlock)
        { machine with frames := [] :: outer } =
      ({ machine with
        frames := production.slots machine.scope production.propertyNames :: outer } :
          Machine).done := by
  have hrun := execute_propertyBlocks production host machine production.propertyNames
    production.nodup_propertyNames [] outer (fun _ _ => rfl)
  simpa using hrun

/-- The slot of the inner markup once its block has been run. -/
def childrenSlots (html : String) : Slots :=
  if production.innerMarkup = [] then [] else [(childrenProperty, .done (.html html))]

/-- The slots of all blocks hold the properties that the component is called with. -/
theorem properties_slots (scope : Scope) (html : String) :
    Slots.properties (production.slots scope production.propertyNames ++
      production.childrenSlots html) = production.properties scope html := by
  rw [Slots.properties, List.map_append, properties, slots, List.map_map, childrenSlots]
  split
  · rfl
  · rfl

variable {production host machine}

/-- Inner markup that is begun, written by any code and sealed. What the code writes becomes the
property. -/
theorem leads_children {code : Machine → Outcome} {inner : Effect} {frame : Slots}
    (hnew : Bindings.contains frame childrenProperty = false)
    (hcode : inner.Describes machine.scope .children code) (outer : List Slots) :
    inner.Leads machine
      (fun html => { machine with
        frames := (frame ++ [(childrenProperty, .done (.html html))]) :: outer })
      ((code { machine with
        frames := Bindings.insert frame childrenProperty (.markup "") :: outer }).andThen
          Machine.sealChildren) := by
  have hbegun := Bindings.get?_insert frame childrenProperty (.markup "") childrenProperty
  rw [if_pos rfl] at hbegun
  have hrun := hcode
    { machine with frames := Bindings.insert frame childrenProperty (.markup "") :: outer } rfl
    ⟨_, outer, "", rfl, hbegun⟩
  apply Effect.Leads.finish hrun
  intro html
  have hslot := Bindings.get?_insert
    (Bindings.insert frame childrenProperty (.markup "")) childrenProperty
    (.markup ("" ++ html)) childrenProperty
  rw [if_pos rfl] at hslot
  rw [Machine.written_children machine hbegun]
  change ({ machine.calling inner.calls with frames := _ :: outer } : Machine).sealChildren = _
  rw [Machine.sealChildren_eq _ hslot, Bindings.insert_insert, Bindings.insert_insert,
    Bindings.insert_of_not_contains hnew, String.empty_append]
  rfl

/-- The block of the inner markup is the inner markup itself between opening and finishing its slot. -/
theorem executeAll_compileChildren (body : List Statement) (frame : Slots) (outer : List Slots) :
    executeAll host (compileChildren body) { machine with frames := frame :: outer } =
      (executeAll host (Statement.retargetAll .children body) { machine with
        frames := Bindings.insert frame childrenProperty (.markup "") :: outer }).andThen
          Machine.sealChildren := by
  rw [compileChildren, List.cons_append, executeAll_cons]
  change Outcome.andThen (Machine.done _) _ = _
  rw [Outcome.done_andThen, executeAll_append]
  congr 1
  funext next
  rw [executeAll_singleton]
  rfl

/-- The inner markup of a tag, there or not. -/
theorem leads_childrenBlock {inner : Effect} {frame : Slots}
    (hnew : production.innerMarkup ≠ [] → Bindings.contains frame childrenProperty = false)
    (hinner : ∀ target after, after.scope = machine.scope → after.Accepts target →
      inner.Leads after (after.written target)
        (executeAll host (Statement.retargetAll target production.innerMarkup) after))
    (outer : List Slots) :
    inner.Leads machine
      (fun html => { machine with frames := (frame ++ production.childrenSlots html) :: outer })
      (executeAll host production.childrenBlock { machine with frames := frame :: outer }) := by
  by_cases hempty : production.innerMarkup = []
  · -- With no statements the effect can only be the one of doing nothing.
    rw [hempty] at hinner
    obtain rfl : inner = Effect.nothing := Effect.eq_nothing_of_describes_done (hinner .page)
    change executeAll host production.childrenBlock _ = (Machine.calling _ []).done
    simp [childrenBlock, childrenSlots, hempty]
  · have hrun := leads_children (hnew hempty) (hinner .children) outer
    rw [← executeAll_compileChildren] at hrun
    simpa only [childrenBlock, childrenSlots, hempty, if_false] using hrun

/-- Rendering the component takes the innermost map of properties away and writes the answer. -/
theorem leads_render {frame : Slots} {call : HostCall} {target : Target}
    (hproperties : Slots.properties frame = call.properties) (hscope : machine.scope = call.scope)
    (haccepts : machine.Accepts target) :
    (rendering host call).Leads machine (machine.written target)
      (({ machine with frames := frame :: machine.frames } : Machine).render host call.component
        target) := by
  obtain ⟨component, properties, scope⟩ := call
  dsimp only at hproperties hscope
  subst hproperties hscope
  unfold Machine.render
  dsimp only
  cases hanswer : host ⟨component, Slots.properties frame, machine.scope⟩ with
  | error error =>
      rw [rendering_of_error hanswer]
      exact ⟨rfl, rfl⟩
  | ok value =>
      rw [rendering_of_ok hanswer]
      change (machine.calling _).write target value.toHtml =
        ((machine.written target value.toHtml).calling _).done
      rw [Machine.write_eq (haccepts.calling _), Machine.written_calling]

/-- The code of a tag does what the tag means. -/
theorem leads_effect {invocation : Invocation} (hcompile : production.compile = .ok invocation)
    {scope : Scope} {inner : Effect}
    (hinner : ∀ target machine, machine.scope = scope → machine.Accepts target →
      inner.Leads machine (machine.written target)
        (executeAll host (Statement.retargetAll target production.innerMarkup) machine))
    {target : Target} (hscope : machine.scope = scope) (haccepts : machine.Accepts target) :
    (production.effect host scope inner).Leads machine (machine.written target)
      (executeAll host (Statement.retargetAll target invocation.statements) machine) := by
  subst hscope
  have hnew : production.innerMarkup ≠ [] → Bindings.contains
      (production.slots machine.scope production.propertyNames) childrenProperty = false := by
    intro hne
    rw [← Bool.not_eq_true, contains_slots]
    exact (statements_of_compile hcompile).2 hne
  rw [retargetAll_statements target hcompile, executeAll_cons]
  change (production.effect host machine.scope inner).Leads machine _
    (Outcome.andThen (Machine.done { machine with frames := [] :: machine.frames }) _)
  rw [Outcome.done_andThen, List.append_assoc, executeAll_append,
    execute_propertyNames production host machine machine.frames, Outcome.done_andThen,
    executeAll_append]
  apply Effect.Leads.bind (leads_childrenBlock hnew hinner machine.frames)
  · intro html
    rfl
  · intro html
    rw [executeAll_singleton]
    have hreach : (machine.calling inner.calls).written target =
        fun more => (machine.written target more).calling inner.calls :=
      funext (Machine.written_calling machine inner.calls target)
    rw [← hreach]
    exact leads_render (properties_slots production machine.scope html) rfl
      (haccepts.calling inner.calls)

end Run

end Production

end ComponentTemplates
