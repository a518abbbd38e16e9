/-
Module: ComponentTemplates.Proofs.Rendering.Guises
Purpose: A page does not depend on the guise of its data. Text that is escaped before it is handed over
  gives the page that it gives unescaped, by whatever way it gets there (`renderPage_escaped`), and
  a value that is wrapped as a property with one part gives the page that it gives bare
  (`renderPage_wrapped`).
Main exports: Renderer.renderPage_eq_of_guise, Renderer.renderPage_escaped,
  Renderer.renderPage_wrapped
-/
import ComponentTemplates.Invocation.Basic
import ComponentTemplates.Proofs.Correspondence.Rendering
import ComponentTemplates.Proofs.Value.Rewriting

namespace ComponentTemplates

namespace Renderer

open Value

/-- Pages of one value in two guises. Literals stand for themselves, so nothing is asked of the program or
of the templates. -/
theorem renderPage_eq_of_guise (renderer : Renderer) (statements : List Statement)
    {data data' : Value} (h : Rewritten Guise data data') :
    renderer.renderPage statements data = renderer.renderPage statements data' := by
  have hplain : ∀ body, Correspondence.guise.Plain body :=
    fun body => Statement.literalsAll_of_forall (fun _ => rfl) body
  apply alike_eq_iff.1
  exact Correspondence.renderPage_match (fun _ template _ => hplain template.statements)
    (hplain statements) h

/-- Text is escaped once: to escape it beforehand, at any number of places in the data, changes neither the
page nor the error. -/
theorem renderPage_escaped (renderer : Renderer) (statements : List Statement)
    {data data' : Value} (h : Rewritten Escapes data data') :
    renderer.renderPage statements data = renderer.renderPage statements data' :=
  renderer.renderPage_eq_of_guise statements (h.mono fun _ _ => Escapes.guise)

/-- A tag that puts a text alone into one property, among other parts into a second, and into its inner
markup. -/
def noteTag : Production :=
  { name := "Note"
    attributes := [
      { name := "title", value := [.value (Lookup.ofPath "Title")] },
      { name := "class", value := [.literal "\"", .value (Lookup.ofPath "Title")] }]
    children := some [.loop (Lookup.ofPath "Tags") [.append .page (.value { steps := [] })]] }

/-- The template of that tag, which shows nothing if the title is empty. -/
def noteStore : TemplateStore :=
  [("Note", "<% if $title %>{$title}|{$class}|{$children}<% end_if %>")]

/-- The note with its title and an empty tag escaped beforehand is the same page. -/
theorem renderPage_escaped_note :
    let page := (noteTag.compile.toOption.map (·.statements)).getD []
    let renderer : Renderer := { viewer := Viewer.ofStore noteStore }
    let data : Value := .record [("Title", .text "<"), ("Tags", .list [.text "&", .text ""])]
    let data' : Value := .record [("Title", .html "&lt;"), ("Tags", .list [.text "&", .html ""])]
    Rewritten Escapes data data' ∧
      renderer.renderPage page data = renderer.renderPage page data' ∧
      (renderer.renderPage page data').toOption = some "&lt;|&quot;&lt;|&amp;" := by
  intro page renderer data data'
  have htitle : Rewritten Escapes (.text "<") (.html "&lt;") := .step (.text "<") (.text "<")
  have hempty : Rewritten Escapes (.text "") (.html "") := .step (.text "") (.text "")
  have hdata : Rewritten Escapes data data' :=
    .ofFields (.cons ⟨rfl, htitle⟩
      (.cons ⟨rfl, .ofItems (.cons (.text "&") (.cons hempty .nil))⟩ .nil))
  exact ⟨hdata, renderer.renderPage_escaped page hdata, by decide +kernel⟩

/-- A property with one part is its part: to wrap values so, at any number of places in the data and any
number of times, changes neither the page nor the error. -/
theorem renderPage_wrapped (renderer : Renderer) (statements : List Statement)
    {data data' : Value} (h : Rewritten Wraps data data') :
    renderer.renderPage statements data = renderer.renderPage statements data' :=
  renderer.renderPage_eq_of_guise statements (h.mono fun _ _ => Wraps.guise)

/-- Code that loops over tags and scopes into each, handing on what it finds there. -/
def tagListPage : List Statement :=
  [.loop (Lookup.ofPath "Tags") [.within (Lookup.ofPath "Owner") [.choose
    [⟨Lookup.ofPath "Name", [.beginProps, .initProperty "title",
      .append (.property "title") (.value (Lookup.ofPath "Name")), .createProperty "title",
      .renderComponent "Badge" .page]⟩]
    (some [.append .page (.literal "-")])]]]

/-- The template of the component in that code. -/
def badgeStore : TemplateStore :=
  [("Badge", "<% with $title %>[$First.Name$Count]<% end_with %>")]

/-- The tags with the data, the list, each owner and the names wrapped are the same page. -/
theorem renderPage_wrapped_badges :
    let renderer : Renderer := { viewer := Viewer.ofStore badgeStore }
    let names : Value := .list [.record [("Name", .html "<i>")], .null]
    let wrapped : Value := .field "a" [.field "b" [names]]
    let data : Value := .record [("Tags", .list
      [.record [("Owner", .record [("Name", names)])], .record [("Owner", .bool true)]])]
    let data' : Value := .field "data" [.record [("Tags", .field "tags" [.list
      [.record [("Owner", .field "owner" [.record [("Name", wrapped)]])],
        .record [("Owner", .field "owner" [.bool true])]]])]]
    Rewritten Wraps data data' ∧
      renderer.renderPage tagListPage data = renderer.renderPage tagListPage data' ∧
      (renderer.renderPage tagListPage data').toOption = some "[<i>2]-" := by
  intro renderer names wrapped data data'
  have hnames : Rewritten Wraps names names :=
    .ofItems (.cons (.ofFields (.cons ⟨rfl, .html "<i>"⟩ .nil)) (.cons .null .nil))
  have hwrapped : Rewritten Wraps names wrapped :=
    .step (.step hnames (.wrap "b" names)) (.wrap "a" (.field "b" [names]))
  have howner : Rewritten Wraps (.record [("Name", names)]) (.record [("Name", wrapped)]) :=
    .ofFields (.cons ⟨rfl, hwrapped⟩ .nil)
  have hfirst : Rewritten Wraps (.record [("Owner", .record [("Name", names)])])
      (.record [("Owner", .field "owner" [.record [("Name", wrapped)]])]) :=
    .ofFields (.cons ⟨rfl, .step howner (.wrap "owner" _)⟩ .nil)
  have hsecond : Rewritten Wraps (.record [("Owner", .bool true)])
      (.record [("Owner", .field "owner" [.bool true])]) :=
    .ofFields (.cons ⟨rfl, .step (.bool true) (.wrap "owner" _)⟩ .nil)
  have htags := Rewritten.ofItems (.cons hfirst (.cons hsecond .nil))
  have hroot : Rewritten Wraps data (.record [("Tags", .field "tags" [.list
      [.record [("Owner", .field "owner" [.record [("Name", wrapped)]])],
        .record [("Owner", .field "owner" [.bool true])]]])]) :=
    .ofFields (.cons ⟨rfl, .step htags (.wrap "tags" _)⟩ .nil)
  have hdata : Rewritten Wraps data data' := .step hroot (.wrap "data" _)
  exact ⟨hdata, renderer.renderPage_wrapped tagListPage hdata, by decide +kernel⟩

end Renderer

end ComponentTemplates
