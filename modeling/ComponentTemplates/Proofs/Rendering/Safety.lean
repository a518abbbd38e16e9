/-
Module: ComponentTemplates.Proofs.Rendering.Safety
Purpose: Templates that parse cannot fail when they run. Their program ends well in any scope and asks
  no host for anything, so that components over templates in memory are rendered without any further
  component, and a page is either rendered or refused for its source (`renderTemplate_safe`).
Main exports: Renderer.renderWith_ofStore, Renderer.renderTemplate_safe
-/
import ComponentTemplates.Proofs.Rendering.Verdict

namespace ComponentTemplates

namespace Template

/-- The run of a template starts with an empty page and ends with the markup of the scope on it. -/
theorem runMachine_of_parseTemplate {source : String} {statements : List Statement}
    (h : parseTemplate source = .ok statements) :
    ∃ html : Scope → String, ∀ host scope,
      runMachine host scope statements = ({ scope, page := html scope } : Machine).done := by
  obtain ⟨html, hhtml⟩ := writesPage_of_parseTemplate h
  refine ⟨html, ?_⟩
  intro host scope
  have hrun : runMachine host scope statements =
      ({ scope, page := "" ++ html scope } : Machine).done := hhtml host { scope }
  rwa [String.empty_append] at hrun

end Template

namespace Renderer

/-- Where templates come from a store, it makes no difference which host renders the components inside. -/
theorem renderWith_ofStore (config : Config) (store : TemplateStore) (nestingLimit : Nat)
    (component : String) (properties : Properties) (host other : Host) :
    ({ config, viewer := Viewer.ofStore store, nestingLimit } : Renderer).renderWith host component
        properties =
      ({ config, viewer := Viewer.ofStore store, nestingLimit } : Renderer).renderWith other component
        properties := by
  unfold renderWith
  dsimp only
  rcases TemplateStore.missing_or_finds store (searchPaths config component) with
    hmissing | ⟨path, source, hfound⟩
  · rw [TemplateStore.ofStore_of_missing hmissing]
    rfl
  · rw [TemplateStore.ofStore_of_finds hfound, compileTemplate]
    cases hparse : Template.parseTemplate source with
    | error fault => rfl
    | ok statements =>
        obtain ⟨html, hhtml⟩ := Template.runProgram_of_parseTemplate hparse
        cases componentContext component properties with
        | error error => rfl
        | ok context =>
            change (runProgram host (Scope.ofRoot context) statements >>= _) =
              (runProgram other (Scope.ofRoot context) statements >>= _)
            rw [hhtml, hhtml]

/-- **Safety of templates**: the program of a source that parses ends well in every scope and with every
host, which it makes no call to, and it leaves no map of properties behind; so a page is rendered
whenever its source parses, and refused for its source otherwise. Components over templates in memory
are rendered without asking for further ones. -/
theorem renderTemplate_safe (source : String) :
    (match Template.parseTemplate source with
      | .ok statements => ∃ html : Scope → String,
          (∀ host scope, runMachine host scope statements =
            (.ok (), { scope, page := html scope, frames := [], calls := [] })) ∧
          ∀ (renderer : Renderer) data,
            renderer.renderTemplate source data = .ok (html (Scope.ofRoot data))
      | .error fault => ∀ (renderer : Renderer) data,
          renderer.renderTemplate source data = .error (.template "<string>" fault)) ∧
      ∀ config store nestingLimit component properties host other,
        ({ config, viewer := Viewer.ofStore store, nestingLimit } : Renderer).renderWith host component
            properties =
          ({ config, viewer := Viewer.ofStore store, nestingLimit } : Renderer).renderWith other
            component properties := by
  refine ⟨?_, renderWith_ofStore⟩
  cases hparse : Template.parseTemplate source with
  | error fault =>
      intro renderer data
      rw [renderTemplate, compileTemplate, hparse]
      rfl
  | ok statements =>
      obtain ⟨html, hhtml⟩ := Template.runMachine_of_parseTemplate hparse
      refine ⟨html, hhtml, ?_⟩
      intro renderer data
      rw [renderTemplate, compileTemplate, hparse, ok_bind, renderPage, runProgram, hhtml]
      rfl

end Renderer

end ComponentTemplates
