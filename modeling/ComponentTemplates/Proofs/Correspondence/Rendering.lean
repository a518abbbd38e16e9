/-
Module: ComponentTemplates.Proofs.Correspondence.Rendering
Purpose: Pages rendered from corresponding data. Components that are rendered with related properties
  give related markup at every depth of nesting, so that the components a page contains are matching
  hosts for it. What is asked of the templates is that their text stands for itself.
Main exports: Correspondence.renderWith_match_of_context, Correspondence.host_match,
  Correspondence.renderPage_match
-/
import ComponentTemplates.Proofs.Correspondence.Execution
import ComponentTemplates.Renderer

namespace ComponentTemplates.Correspondence

variable {R : Correspondence}

/-- What a component's template sees. Its own name is plain text. -/
theorem componentContext_match (component : String) {properties properties' : Properties}
    (h : Bindings.Related R.value properties properties') :
    Alike R.value (componentContext component properties)
      (componentContext component properties') := by
  unfold componentContext
  rw [h.names_eq, h.contains_eq]
  split
  · exact .error _
  · split
    · exact .ok (R.record h)
    · exact .ok (R.record (h.insert componentNameField (R.text component)))

section Renderer

variable {renderer : Renderer}
  (hplain : ∀ candidates template,
    renderer.viewer candidates = .ok (some template) → R.Plain template.statements)

include hplain

/-- A component rendered with properties that its template cannot tell apart. -/
theorem renderWith_match_of_context {host host' : Host} (hhost : R.HostsMatch host host')
    (component : String) {properties properties' : Properties}
    (h : Alike R.value (componentContext component properties)
      (componentContext component properties')) :
    Alike R.value (renderer.renderWith host component properties)
      (renderer.renderWith host' component properties') := by
  unfold Renderer.renderWith
  dsimp only
  cases hview : renderer.viewer (searchPaths renderer.config component) with
  | error error => exact .error error
  | ok found =>
      cases found with
      | none => exact .error _
      | some template =>
          apply h.bind
          intro context context' hcontext
          apply (runProgram_match hhost (hplain _ _ hview) (.ofRoot hcontext)).bind
          intro page page' hpage
          exact .ok (R.html hpage)

/-- A component with related properties is rendered as related values or with the same error. -/
theorem renderWith_match {host host' : Host} (hhost : R.HostsMatch host host') (component : String)
    {properties properties' : Properties} (h : Bindings.Related R.value properties properties') :
    Alike R.value (renderer.renderWith host component properties)
      (renderer.renderWith host' component properties') :=
  renderWith_match_of_context hplain hhost component (componentContext_match component h)

/-- Components answer alike, however deep they are nested. -/
theorem host_match (levels : Nat) : R.HostsMatch (renderer.host levels) (renderer.host levels) := by
  induction levels with
  | zero =>
      intro call call' hcall
      exact .error _
  | succ levels ih =>
      intro call call' hcall
      have hrender := renderWith_match hplain ih call.component hcall.properties
      unfold Renderer.host
      rw [← hcall.component]
      exact hrender

/-- A page rendered from corresponding data. -/
theorem renderPage_match {statements : List Statement} (hpage : R.Plain statements)
    {data data' : Value} (hdata : R.value data data') :
    Alike R.markup (renderer.renderPage statements data)
      (renderer.renderPage statements data') :=
  runProgram_match (host_match hplain renderer.nestingLimit) hpage (.ofRoot hdata)

end Renderer

end ComponentTemplates.Correspondence
