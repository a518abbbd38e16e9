/-
Module: ComponentTemplates.Proofs.Rendering.Injection
Purpose: Plain text cannot bring markup into a page. If the literals of the page and the text of the
  templates are clean and so is the markup in the data, the page is clean, whatever the plain text
  in the data is and wherever it goes (`renderPage_clean`).
Main exports: Renderer.renderPage_clean
-/
import ComponentTemplates.Proofs.Correspondence.Rendering
import ComponentTemplates.Proofs.Template.Parser
import ComponentTemplates.Proofs.Value.Harmless

namespace ComponentTemplates

open Text.Markup

/-- The text between the marks of each template is clean. -/
def TemplateStore.CleanText (store : TemplateStore) : Prop :=
  ∀ entry ∈ store, ∀ content ∈ Template.textPieces entry.2, CleanChars content

theorem mem_of_load {store : TemplateStore} {path source : String}
    (h : store.load path = .ok source) : (path, source) ∈ store := by
  unfold TemplateStore.load at h
  split at h
  · rename_i found hfound
    cases h
    exact Bindings.mem_of_get? hfound
  · cases h

/-- Clean template texts stay clean in the program of the template. -/
theorem TemplateStore.CleanText.literalsAll {store : TemplateStore} (h : store.CleanText)
    {candidates : List String} {template : CompiledTemplate}
    (hview : Viewer.ofStore store candidates = .ok (some template)) :
    Statement.LiteralsAll Clean template.statements := by
  unfold Viewer.ofStore at hview
  split at hview
  · cases hview
  · rename_i path _
    split at hview
    · rename_i source hload
      unfold compileTemplate at hview
      split at hview
      · rename_i statements hparse
        cases hview
        apply Template.literalsAll_of_parseTemplate ?_ hparse
        intro content hmem
        unfold Clean
        rw [String.toList_ofList]
        exact h (path, source) (mem_of_load hload) content hmem
      · cases hview
    · cases hview

/-- Of a program, clean data asks that its texts be clean. -/
theorem plain_clean_iff {body : List Statement} :
    Correspondence.clean.Plain body ↔ Statement.LiteralsAll Clean body := by
  have hmarkup : (fun text => Correspondence.clean.markup text text) = Clean := by
    funext text
    exact propext ⟨And.left, fun h => ⟨h, rfl⟩⟩
  rw [Correspondence.Plain, hmarkup]

namespace Renderer

/-- Markup comes into a page from the page's own literals, from the text of templates and from the markup in
the data, and from nowhere else. -/
theorem renderPage_clean {store : TemplateStore} (hstore : store.CleanText) (config : Config)
    (nestingLimit : Nat) {statements : List Statement} (hstatements : Statement.LiteralsAll Clean statements)
    {data : Value} (hdata : data.Harmless) {page : String}
    (hpage : ({ config, viewer := Viewer.ofStore store, nestingLimit } : Renderer).renderPage statements
      data = .ok page) : Clean page := by
  have htemplates : ∀ candidates template, Viewer.ofStore store candidates = .ok (some template) →
      Correspondence.clean.Plain template.statements :=
    fun _ _ hview => plain_clean_iff.2 (hstore.literalsAll hview)
  have hsame : Correspondence.clean.value data data := ⟨hdata, rfl⟩
  have hrender : Alike Correspondence.clean.markup
      (renderPage { config, viewer := Viewer.ofStore store, nestingLimit } statements data)
      (renderPage { config, viewer := Viewer.ofStore store, nestingLimit } statements data) :=
    Correspondence.renderPage_match htemplates (plain_clean_iff.2 hstatements) hsame
  rw [hpage] at hrender
  cases hrender with
  | ok hmarkup => exact hmarkup.1

/-- A component with markup characters in its name, in a property and in the name of a field. -/
def hostilePage : List Statement :=
  [.beginProps, .initProperty "title", .append (.property "title") (.literal "\""),
    .append (.property "title") (.value (Lookup.ofPath "a>b")), .createProperty "title",
    .initChildren, .append .children (.literal "&lt;"),
    .append .children (.value (Lookup.ofPath "a>b")), .sealChildren, .renderComponent "<b>" .page]

/-- The template of that component. -/
def hostileStore : TemplateStore :=
  [("<b>", "{$ComponentName} &amp; {$title} {$children}")]

/-- Data with markup in it, shown by the component above, makes a clean page. -/
theorem renderPage_clean_hostile :
    let renderer : Renderer := { viewer := Viewer.ofStore hostileStore }
    let data : Value := .record [("a>b", .text "<i>&")]
    hostileStore.CleanText ∧ Statement.LiteralsAll Clean hostilePage ∧ data.Harmless ∧
      ∃ page, renderer.renderPage hostilePage data = .ok page ∧ Clean page ∧
        page = "&lt;b&gt; &amp; &quot;&lt;i&gt;&amp; &lt;&lt;i&gt;&amp;" := by
  intro renderer data
  have hstore : hostileStore.CleanText := by
    unfold TemplateStore.CleanText
    decide +kernel
  have hliteral : Clean "&lt;" := by decide
  have hstatements : Statement.LiteralsAll Clean hostilePage :=
    ⟨trivial, trivial, trivial, trivial, trivial, trivial, hliteral, trivial, trivial, trivial,
      trivial⟩
  have hdata : data.Harmless := .record (by simp [Value.Harmless.text])
  have hshown : (renderer.renderPage hostilePage data).toOption =
      some "&lt;b&gt; &amp; &quot;&lt;i&gt;&amp; &lt;&lt;i&gt;&amp;" := by decide +kernel
  refine ⟨hstore, hstatements, hdata, ?_⟩
  cases hpage : renderer.renderPage hostilePage data with
  | error error =>
      rw [hpage] at hshown
      cases hshown
  | ok page =>
      rw [hpage] at hshown
      exact ⟨page, rfl, renderPage_clean hstore {} _ hstatements hdata hpage, Option.some.inj hshown⟩

end Renderer

end ComponentTemplates
