/-
Module: ComponentTemplates.Proofs.Rendering.Verdict
Purpose: How the rendering of a component over templates in memory ends. The search stops at the first
  candidate that names a template; then the template must parse, and no property may have a reserved
  name; nothing after that can fail. So each error has exactly one reason, and templates that the
  search does not come to make no difference (`render_verdict`).
Main exports: TemplateStore.Reaches, TemplateStore.Finds, Properties.FirstReserved,
  Renderer.render_cases, Renderer.render_verdict
-/
import ComponentTemplates.Proofs.Template.Execution
import ComponentTemplates.Renderer

namespace ComponentTemplates

namespace TemplateStore

/-- The search comes to the candidate: none in front of it names a template. -/
def Reaches (store : TemplateStore) (candidates : List String) (path : String) : Prop :=
  ∃ before after, candidates = before ++ path :: after ∧
    ∀ earlier ∈ before, Bindings.get? store earlier = none

/-- The search ends at the candidate, which names a template with this source. -/
def Finds (store : TemplateStore) (candidates : List String) (path source : String) : Prop :=
  store.Reaches candidates path ∧ Bindings.get? store path = some source

variable {store : TemplateStore} {candidates : List String}

theorem holds_eq_false_iff {path : String} :
    store.holds path = false ↔ Bindings.get? store path = none := by
  unfold holds Bindings.contains
  exact Option.isSome_eq_false_iff.trans Option.isNone_iff_eq_none

theorem find?_holds_of_finds {path source : String} (h : store.Finds candidates path source) :
    candidates.find? store.holds = some path := by
  obtain ⟨⟨before, after, hsplit, hbefore⟩, hsource⟩ := h
  rw [List.find?_eq_some_iff_append]
  constructor
  · unfold holds Bindings.contains
    rw [hsource]
    rfl
  · refine ⟨before, after, hsplit, ?_⟩
    intro earlier hearlier
    rw [holds_eq_false_iff.2 (hbefore earlier hearlier)]
    rfl

theorem find?_holds_of_missing (h : ∀ path ∈ candidates, Bindings.get? store path = none) :
    candidates.find? store.holds = none := by
  rw [List.find?_eq_none]
  intro path hpath
  rw [holds_eq_false_iff.2 (h path hpath)]
  exact Bool.false_ne_true

/-- No candidate names a template, or the search ends at one that does. -/
theorem missing_or_finds (store : TemplateStore) (candidates : List String) :
    (∀ path ∈ candidates, Bindings.get? store path = none) ∨
      ∃ path source, store.Finds candidates path source := by
  induction candidates with
  | nil => exact .inl nofun
  | cons first rest ih =>
      cases hfirst : Bindings.get? store first with
      | some source => exact .inr ⟨first, source, ⟨[], rest, rfl, nofun⟩, hfirst⟩
      | none =>
          rcases ih with hmissing | ⟨path, source, ⟨before, after, hsplit, hbefore⟩, hsource⟩
          · exact .inl (List.forall_mem_cons.2 ⟨hfirst, hmissing⟩)
          · refine .inr ⟨path, source, ⟨first :: before, after, ?_, ?_⟩, hsource⟩
            · rw [hsplit, List.cons_append]
            · exact List.forall_mem_cons.2 ⟨hfirst, hbefore⟩

/-- Where no candidate names a template, the search comes to each of them. -/
theorem reaches_of_missing (h : ∀ path ∈ candidates, Bindings.get? store path = none) {path : String}
    (hpath : path ∈ candidates) : store.Reaches candidates path := by
  obtain ⟨before, after, rfl⟩ := List.append_of_mem hpath
  exact ⟨before, after, rfl, fun earlier hearlier => h earlier (List.mem_append_left _ hearlier)⟩

/-- The search comes to the candidates in front of another that it comes to. -/
theorem reaches_of_mem_before {before after : List String} {path earlier : String}
    (hbefore : ∀ other ∈ before, Bindings.get? store other = none) (hearlier : earlier ∈ before) :
    store.Reaches (before ++ path :: after) earlier := by
  obtain ⟨front, back, rfl⟩ := List.append_of_mem hearlier
  refine ⟨front, back ++ path :: after, by simp, ?_⟩
  intro other hother
  exact hbefore other (List.mem_append_left _ hother)

/-- Two stores that agree where the search in one of them goes give it the same end. -/
theorem finds_of_agree {other : TemplateStore}
    (hagree : ∀ path, store.Reaches candidates path →
      Bindings.get? other path = Bindings.get? store path)
    {path source : String} (h : store.Finds candidates path source) :
    other.Finds candidates path source := by
  have hsame := hagree path h.1
  obtain ⟨⟨before, after, rfl, hbefore⟩, hsource⟩ := h
  constructor
  · refine ⟨before, after, rfl, ?_⟩
    intro earlier hearlier
    rw [hagree earlier (reaches_of_mem_before hbefore hearlier)]
    exact hbefore earlier hearlier
  · rw [hsame, hsource]

theorem ofStore_of_missing (h : ∀ path ∈ candidates, Bindings.get? store path = none) :
    Viewer.ofStore store candidates = .ok none := by
  unfold Viewer.ofStore
  rw [find?_holds_of_missing h]

/-- The template that is found is the one that is parsed. -/
theorem ofStore_of_finds {path source : String} (h : store.Finds candidates path source) :
    Viewer.ofStore store candidates = (compileTemplate path source).map some := by
  unfold Viewer.ofStore load
  rw [find?_holds_of_finds h]
  dsimp only
  rw [h.2]

end TemplateStore

/-- The property is the first one with a reserved name. -/
def Properties.FirstReserved (properties : Properties) (property : String) : Prop :=
  ∃ before after, Bindings.names properties = before ++ property :: after ∧
    property ∈ reservedProperties ∧ ∀ earlier ∈ before, earlier ∉ reservedProperties

/-- No property has a reserved name. -/
def Properties.Allowed (properties : Properties) : Prop :=
  ∀ property ∈ Bindings.names properties, property ∉ reservedProperties

/-- Either all properties are allowed or there is a first reserved one. -/
theorem Properties.firstReserved_or_allowed (properties : Properties) :
    (∃ property, properties.FirstReserved property) ∨ properties.Allowed := by
  cases hfound : (Bindings.names properties).find? reservedProperties.contains with
  | none =>
      refine .inr fun property hproperty => ?_
      have hnot := List.find?_eq_none.1 hfound property hproperty
      rwa [List.contains_iff_mem] at hnot
  | some property =>
      obtain ⟨hreserved, before, after, hsplit, hbefore⟩ := List.find?_eq_some_iff_append.1 hfound
      refine .inl ⟨property, before, after, hsplit, List.contains_iff_mem.1 hreserved, ?_⟩
      intro earlier hearlier hmem
      have hnot := hbefore earlier hearlier
      rw [List.contains_iff_mem.2 hmem] at hnot
      cases hnot

/-- The first property with a reserved name is the one that is reported. -/
theorem componentContext_of_firstReserved {properties : Properties} {property : String}
    (h : properties.FirstReserved property) (component : String) :
    componentContext component properties = .error (.reservedProperty property component) := by
  obtain ⟨before, after, hsplit, hreserved, hbefore⟩ := h
  have hfound : (Bindings.names properties).find? reservedProperties.contains = some property := by
    rw [List.find?_eq_some_iff_append]
    refine ⟨List.contains_iff_mem.2 hreserved, before, after, hsplit, ?_⟩
    intro earlier hearlier
    simpa using hbefore earlier hearlier
  unfold componentContext
  rw [hfound]

theorem componentContext_of_allowed {properties : Properties} (h : properties.Allowed)
    (component : String) : ∃ context, componentContext component properties = .ok context := by
  have hfound : (Bindings.names properties).find? reservedProperties.contains = none := by
    rw [List.find?_eq_none]
    intro property hproperty
    rw [List.contains_iff_mem]
    exact h property hproperty
  unfold componentContext
  rw [hfound]
  dsimp only
  split
  · exact ⟨_, rfl⟩
  · exact ⟨_, rfl⟩

namespace Renderer

section Store

variable {config : Config} {store : TemplateStore} {nestingLimit : Nat} {component : String}
  {properties : Properties}

theorem render_of_missing
    (h : ∀ path ∈ searchPaths config component, Bindings.get? store path = none) :
    ({ config, viewer := Viewer.ofStore store, nestingLimit } : Renderer).render component properties =
      .error (.templateNotFound (searchPaths config component)) := by
  unfold render renderWith
  dsimp only
  rw [TemplateStore.ofStore_of_missing h]
  rfl

/-- A template that cannot be parsed is reported with its path and its fault. -/
theorem render_of_fault {path source : String} {fault : CompileError}
    (hfound : store.Finds (searchPaths config component) path source)
    (hparse : Template.parseTemplate source = .error fault) :
    ({ config, viewer := Viewer.ofStore store, nestingLimit } : Renderer).render component properties =
      .error (.template path fault) := by
  unfold render renderWith
  dsimp only
  rw [TemplateStore.ofStore_of_finds hfound, compileTemplate, hparse]
  rfl

/-- What a template that parses gives is decided by the properties, wherever it is found. -/
theorem render_of_parse {source : String} {statements : List Statement}
    (hparse : Template.parseTemplate source = .ok statements) :
    ∃ html : Scope → String, ∀ config store nestingLimit component properties path,
      TemplateStore.Finds store (searchPaths config component) path source →
        ({ config, viewer := Viewer.ofStore store, nestingLimit } : Renderer).render component properties =
          (componentContext component properties).map fun context =>
            .html (html (Scope.ofRoot context)) := by
  obtain ⟨html, hhtml⟩ := Template.runProgram_of_parseTemplate hparse
  refine ⟨html, ?_⟩
  intro config store nestingLimit component properties path hfound
  unfold render
  generalize host _ _ = host
  unfold renderWith
  dsimp only
  rw [TemplateStore.ofStore_of_finds hfound, compileTemplate, hparse]
  cases componentContext component properties with
  | error error => rfl
  | ok context =>
      change (runProgram host (Scope.ofRoot context) statements >>= _) = _
      rw [hhtml]
      rfl

/-- A reserved property is reported once there is a template that can be parsed. -/
theorem render_of_firstReserved {path source property : String} {statements : List Statement}
    (hfound : store.Finds (searchPaths config component) path source)
    (hparse : Template.parseTemplate source = .ok statements)
    (hreserved : properties.FirstReserved property) :
    ({ config, viewer := Viewer.ofStore store, nestingLimit } : Renderer).render component properties =
      .error (.reservedProperty property component) := by
  obtain ⟨html, hhtml⟩ := render_of_parse hparse
  rw [hhtml config store nestingLimit component properties path hfound,
    componentContext_of_firstReserved hreserved]
  rfl

/-- With a template that can be parsed and allowed properties there is a page. -/
theorem render_of_allowed {path source : String} {statements : List Statement}
    (hfound : store.Finds (searchPaths config component) path source)
    (hparse : Template.parseTemplate source = .ok statements) (hallowed : properties.Allowed) :
    ∃ page, ({ config, viewer := Viewer.ofStore store, nestingLimit } : Renderer).render component properties =
      .ok (.html page) := by
  obtain ⟨html, hhtml⟩ := render_of_parse hparse
  obtain ⟨context, hcontext⟩ := componentContext_of_allowed hallowed component
  refine ⟨html (Scope.ofRoot context), ?_⟩
  rw [hhtml config store nestingLimit component properties path hfound, hcontext]
  rfl

/-- The four ways in which the rendering of a component ends. -/
theorem render_cases (config : Config) (store : TemplateStore) (nestingLimit : Nat) (component : String)
    (properties : Properties) :
    let candidates := searchPaths config component
    let answer := ({ config, viewer := Viewer.ofStore store, nestingLimit } : Renderer).render component properties
    ((∀ path ∈ candidates, Bindings.get? store path = none) ∧
        answer = .error (.templateNotFound candidates)) ∨
      ∃ path source, store.Finds candidates path source ∧
        ((∃ fault, Template.parseTemplate source = .error fault ∧
            answer = .error (.template path fault)) ∨
          ∃ statements, Template.parseTemplate source = .ok statements ∧
            ((∃ property, properties.FirstReserved property ∧
                answer = .error (.reservedProperty property component)) ∨
              properties.Allowed ∧ ∃ page, answer = .ok (.html page))) := by
  intro candidates answer
  rcases TemplateStore.missing_or_finds store candidates with hmissing | ⟨path, source, hfound⟩
  · exact .inl ⟨hmissing, render_of_missing hmissing⟩
  · refine .inr ⟨path, source, hfound, ?_⟩
    cases hparse : Template.parseTemplate source with
    | error fault => exact .inl ⟨fault, rfl, render_of_fault hfound hparse⟩
    | ok statements =>
        refine .inr ⟨statements, rfl, ?_⟩
        rcases properties.firstReserved_or_allowed with ⟨property, hreserved⟩ | hallowed
        · exact .inl ⟨property, hreserved, render_of_firstReserved hfound hparse hreserved⟩
        · exact .inr ⟨hallowed, render_of_allowed hfound hparse hallowed⟩

/-- The missing template is reported exactly if no path names one. -/
theorem render_eq_templateNotFound_iff {tried : List String} :
    ({ config, viewer := Viewer.ofStore store, nestingLimit } : Renderer).render component properties =
        .error (.templateNotFound tried) ↔
      tried = searchPaths config component ∧
        ∀ path ∈ searchPaths config component, Bindings.get? store path = none := by
  constructor
  · intro h
    rcases render_cases config store nestingLimit component properties with ⟨hmissing, heq⟩ |
      ⟨_, _, _, ⟨_, _, heq⟩ | ⟨_, _, ⟨_, _, heq⟩ | ⟨_, _, heq⟩⟩⟩
    · rw [heq] at h
      cases h
      exact ⟨rfl, hmissing⟩
    all_goals
      rw [heq] at h
      cases h
  · rintro ⟨rfl, hmissing⟩
    exact render_of_missing hmissing

/-- A fault is reported exactly if the template that is found has it. -/
theorem render_eq_template_iff {path : String} {fault : CompileError} :
    ({ config, viewer := Viewer.ofStore store, nestingLimit } : Renderer).render component properties =
        .error (.template path fault) ↔
      ∃ source, store.Finds (searchPaths config component) path source ∧
        Template.parseTemplate source = .error fault := by
  constructor
  · intro h
    rcases render_cases config store nestingLimit component properties with ⟨_, heq⟩ |
      ⟨_, source, hfound, ⟨_, hparse, heq⟩ | ⟨_, _, ⟨_, _, heq⟩ | ⟨_, _, heq⟩⟩⟩
    rotate_left
    · rw [heq] at h
      cases h
      exact ⟨source, hfound, hparse⟩
    all_goals
      rw [heq] at h
      cases h
  · rintro ⟨source, hfound, hparse⟩
    exact render_of_fault hfound hparse

/-- A reserved property is reported exactly if it is the first, and the template can be parsed. -/
theorem render_eq_reservedProperty_iff {property owner : String} :
    ({ config, viewer := Viewer.ofStore store, nestingLimit } : Renderer).render component properties =
        .error (.reservedProperty property owner) ↔
      owner = component ∧ properties.FirstReserved property ∧
        ∃ path source statements, store.Finds (searchPaths config component) path source ∧
          Template.parseTemplate source = .ok statements := by
  constructor
  · intro h
    rcases render_cases config store nestingLimit component properties with ⟨_, heq⟩ |
      ⟨path, source, hfound, ⟨_, _, heq⟩ | ⟨statements, hparse, ⟨_, hreserved, heq⟩ | ⟨_, _, heq⟩⟩⟩
    rotate_left 2
    · rw [heq] at h
      cases h
      exact ⟨rfl, hreserved, path, source, statements, hfound, hparse⟩
    all_goals
      rw [heq] at h
      cases h
  · rintro ⟨rfl, hreserved, path, source, statements, hfound, hparse⟩
    exact render_of_firstReserved hfound hparse hreserved

/-- There is a page exactly if the template can be parsed and all properties are allowed. -/
theorem render_ok_iff :
    (∃ page, ({ config, viewer := Viewer.ofStore store, nestingLimit } : Renderer).render component properties =
        .ok (.html page)) ↔
      properties.Allowed ∧
        ∃ path source statements, store.Finds (searchPaths config component) path source ∧
          Template.parseTemplate source = .ok statements := by
  constructor
  · rintro ⟨page, h⟩
    rcases render_cases config store nestingLimit component properties with ⟨_, heq⟩ |
      ⟨path, source, hfound, ⟨_, _, heq⟩ | ⟨statements, hparse, ⟨_, _, heq⟩ | ⟨hallowed, _, _⟩⟩⟩
    rotate_left 3
    · exact ⟨hallowed, path, source, statements, hfound, hparse⟩
    all_goals
      rw [heq] at h
      cases h
  · rintro ⟨hallowed, path, source, statements, hfound, hparse⟩
    exact render_of_allowed hfound hparse hallowed

/-- Stores that agree on the paths that the search comes to render a component alike. -/
theorem render_of_agree {other : TemplateStore} (limit : Nat)
    (hagree : ∀ path, store.Reaches (searchPaths config component) path →
      Bindings.get? other path = Bindings.get? store path) :
    ({ config, viewer := Viewer.ofStore other, nestingLimit := limit } : Renderer).render component
        properties =
      ({ config, viewer := Viewer.ofStore store, nestingLimit } : Renderer).render component properties := by
  rcases TemplateStore.missing_or_finds store (searchPaths config component) with
    hmissing | ⟨path, source, hfound⟩
  · rw [render_of_missing hmissing, render_of_missing]
    intro path hpath
    rw [hagree path (TemplateStore.reaches_of_missing hmissing hpath)]
    exact hmissing path hpath
  · have hfound' := TemplateStore.finds_of_agree hagree hfound
    cases hparse : Template.parseTemplate source with
    | error fault => rw [render_of_fault hfound hparse, render_of_fault hfound' hparse]
    | ok statements =>
        obtain ⟨html, hhtml⟩ := render_of_parse hparse
        rw [hhtml config store nestingLimit component properties path hfound,
          hhtml config other limit component properties path hfound']

end Store

/-- The rendering of a component ends in one of four ways, each for one reason, and neither a template
that the search does not come to nor the depth that components may have has a part in it. -/
theorem render_verdict (config : Config) (store : TemplateStore) (nestingLimit : Nat) (component : String)
    (properties : Properties) :
    let candidates := searchPaths config component
    let answer := ({ config, viewer := Viewer.ofStore store, nestingLimit } : Renderer).render component properties
    (∀ tried, answer = .error (.templateNotFound tried) ↔
        tried = candidates ∧ ∀ path ∈ candidates, Bindings.get? store path = none) ∧
      (∀ path fault, answer = .error (.template path fault) ↔
        ∃ source, store.Finds candidates path source ∧
          Template.parseTemplate source = .error fault) ∧
      (∀ property owner, answer = .error (.reservedProperty property owner) ↔
        owner = component ∧ properties.FirstReserved property ∧
          ∃ path source statements, store.Finds candidates path source ∧
            Template.parseTemplate source = .ok statements) ∧
      ((∃ page, answer = .ok (.html page)) ↔
        properties.Allowed ∧ ∃ path source statements, store.Finds candidates path source ∧
          Template.parseTemplate source = .ok statements) ∧
      (∀ value, answer = .ok value → ∃ page, value = .html page) ∧
      (∀ fault, answer ≠ .error (.resource fault)) ∧
      (∀ fault, answer ≠ .error (.invalidProgram fault)) ∧
      answer ≠ .error .nestingTooDeep ∧
      ∀ (other : TemplateStore) (limit : Nat),
        (∀ path, store.Reaches candidates path →
          Bindings.get? other path = Bindings.get? store path) →
        ({ config, viewer := Viewer.ofStore other, nestingLimit := limit } : Renderer).render component
            properties =
          answer := by
  intro candidates answer
  refine ⟨fun _ => render_eq_templateNotFound_iff, fun _ _ => render_eq_template_iff,
    fun _ _ => render_eq_reservedProperty_iff, render_ok_iff, ?_, ?_, ?_, ?_,
    fun _ limit => render_of_agree limit⟩
  all_goals
    rcases render_cases config store nestingLimit component properties with ⟨_, heq⟩ |
      ⟨_, _, _, ⟨_, _, heq⟩ | ⟨_, _, ⟨_, _, heq⟩ | ⟨_, page, heq⟩⟩⟩
  all_goals
    change answer = _ at heq
    rw [heq]
    simp

/-- A template that is found, and behind it one that is broken. -/
def shelfStore : TemplateStore :=
  [("Card", "<% loop $items %>"), ("Includes/Card", "<b>$title</b>")]

/-- The template that is found decides; to mend the broken one behind it changes nothing. -/
theorem render_verdict_shelf :
    let candidates := searchPaths {} "Card"
    let renderer : TemplateStore → Nat → Renderer := fun store nestingLimit =>
      { viewer := Viewer.ofStore store, nestingLimit }
    let mended := TemplateStore.add shelfStore "Card" "$title"
    let properties : Properties := [("title", .text "<"), ("objCache", .null)]
    shelfStore.Finds candidates "Includes/Card" "<b>$title</b>" ∧
      (∀ path, shelfStore.Reaches candidates path →
        Bindings.get? mended path = Bindings.get? shelfStore path) ∧
      (renderer shelfStore 8).render "Card" properties =
        .error (.reservedProperty "objCache" "Card") ∧
      (renderer mended 0).render "Card" properties =
        (renderer shelfStore 8).render "Card" properties := by
  intro candidates renderer mended properties
  have hfound : shelfStore.Finds candidates "Includes/Card" "<b>$title</b>" :=
    ⟨⟨["components/Card"], ["Card"], by decide, by decide⟩, by decide⟩
  have hagree : ∀ path, shelfStore.Reaches candidates path →
      Bindings.get? mended path = Bindings.get? shelfStore path := by
    rintro path ⟨before, after, hsplit, hbefore⟩
    by_cases hpath : path = "Card"
    · -- the search would have to pass the template in front
      have hmem : "Includes/Card" ∈ before := by
        rw [hpath, show candidates = ["components/Card", "Includes/Card", "Card"] by decide] at hsplit
        rcases before with _ | ⟨first, _ | ⟨second, _⟩⟩
        · simp at hsplit
        · simp at hsplit
        · simp only [List.cons_append, List.cons.injEq] at hsplit
          simp [hsplit.2.1]
      exact absurd (hbefore _ hmem) (by decide)
    · exact (Bindings.get?_insert shelfStore "Card" "$title" path).trans (if_neg (Ne.symm hpath))
  have hreserved : properties.FirstReserved "objCache" :=
    ⟨["title"], [], by decide, by decide, by decide⟩
  have hparse : (Template.parseTemplate "<b>$title</b>").toOption.isSome = true := by decide +kernel
  obtain ⟨statements, hstatements⟩ := exists_ok_of_isSome hparse
  obtain ⟨_, _, hrefused, _, _, _, _, _, hsame⟩ := render_verdict {} shelfStore 8 "Card" properties
  refine ⟨hfound, hagree, ?_, hsame mended 0 hagree⟩
  exact (hrefused "objCache" "Card").2
    ⟨rfl, hreserved, "Includes/Card", "<b>$title</b>", statements, hfound, hstatements⟩

end Renderer

end ComponentTemplates
