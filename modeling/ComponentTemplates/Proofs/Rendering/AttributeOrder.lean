/-
Module: ComponentTemplates.Proofs.Rendering.AttributeOrder
Purpose: Tags that list their attributes in another order. They compile both or neither, and the pages
  that they render are the same (`renderPage_reordered`), although the properties stand in another
  order wherever a component gets them. Only one order shows: the first property with a reserved
  name is the one that is reported.
Main exports: Renderer.renderPage_reordered
-/
import ComponentTemplates.Proofs.Correspondence.Rendering
import ComponentTemplates.Proofs.Execution.PageBody
import ComponentTemplates.Proofs.Invocation.Verdict
import ComponentTemplates.Proofs.Value.Reordering
import Mathlib.Data.List.Nodup

namespace ComponentTemplates

section Lists

variable {α : Type} {items others : List α} {condition : α → Bool}

/-- What holds of one item at most leaves nothing to be reordered. -/
theorem filter_eq_of_perm (hperm : items.Perm others)
    (hone : (items.filter condition).length ≤ 1) :
    items.filter condition = others.filter condition := by
  have hfilter := hperm.filter condition
  generalize items.filter condition = left at hone hfilter ⊢
  match left, hone with
  | [], _ => exact (List.nil_perm.1 hfilter).symm
  | [item], _ => exact List.singleton_perm.1 hfilter

theorem length_filter_le_one_of_nodup {β : Type} [DecidableEq β] {key : α → β}
    (hdistinct : (items.map key).Nodup) (wanted : β) :
    (items.filter fun item => key item = wanted).length ≤ 1 := by
  have hcount := List.nodup_iff_count_le_one.1 hdistinct wanted
  rw [List.count, List.countP_map, List.countP_eq_length_filter] at hcount
  simpa only [Function.comp_def, beq_eq_decide] using hcount

end Lists

/-! ## Components -/

/-- What a component's template sees of properties in another order, if one of them at most has a
reserved name. -/
theorem componentContext_perm (component : String) {properties properties' : Properties}
    (hperm : properties.Perm properties') (hdistinct : (Bindings.names properties).Nodup)
    (hreserved : ((Bindings.names properties).filter reservedProperties.contains).length ≤ 1) :
    Alike Value.Reordered (componentContext component properties)
      (componentContext component properties') := by
  have hget := Bindings.get?_perm hperm hdistinct
  have hfirst : (Bindings.names properties).find? reservedProperties.contains =
      (Bindings.names properties').find? reservedProperties.contains := by
    have hnames : (Bindings.names properties).Perm (Bindings.names properties') := hperm.map _
    rw [← List.head?_filter, ← List.head?_filter, filter_eq_of_perm hnames hreserved]
  unfold componentContext Bindings.contains
  rw [hfirst, hget componentNameField]
  split
  · exact .error _
  · split
    · exact .ok (.ofGet? hget)
    · apply Alike.ok
      apply Value.Reordered.ofGet?
      intro name
      rw [Bindings.get?_insert, Bindings.get?_insert, hget name]

/-- A component that is asked for with properties that its template cannot tell apart. -/
theorem Renderer.host_reordered (renderer : Renderer) (levels : Nat) {call call' : HostCall}
    (hcomponent : call.component = call'.component)
    (hcontext : Alike Value.Reordered (componentContext call.component call.properties)
      (componentContext call.component call'.properties)) :
    Alike Value.Reordered (renderer.host levels call) (renderer.host levels call') := by
  have hplain : ∀ candidates template, renderer.viewer candidates = .ok (some template) →
      Correspondence.reordered.Plain template.statements :=
    fun _ template _ => Statement.literalsAll_of_forall (fun _ => rfl) template.statements
  cases levels with
  | zero => exact .error _
  | succ levels =>
      unfold Renderer.host
      rw [← hcomponent]
      exact Correspondence.renderWith_match_of_context hplain
        (Correspondence.host_match hplain levels) call.component hcontext

/-! ## Tags -/

namespace Production

variable {production : Production} {attributes : List Attribute}

theorem acceptable_perm (hperm : attributes.Perm production.attributes) :
    ({ production with attributes } : Production).Acceptable ↔ production.Acceptable := by
  unfold Acceptable
  simp only [hperm.mem_iff]
  rfl

section Distinct

variable (hdistinct : (production.attributes.map Attribute.property).Nodup)

include hdistinct

/-- Where no name is given twice the properties stand in the order of the attributes. -/
theorem propertyNames_of_nodup :
    production.propertyNames = production.attributes.map Attribute.property :=
  Bindings.eraseDups_of_nodup hdistinct

variable (hperm : attributes.Perm production.attributes)

include hperm

/-- With distinct properties, a tag names them in the order of its attributes. -/
theorem propertyNames_reordered :
    ({ production with attributes } : Production).propertyNames =
      attributes.map Attribute.property :=
  propertyNames_of_nodup ((hperm.map Attribute.property).nodup_iff.2 hdistinct)

/-- Where no name is given twice there is one attribute for each property. -/
theorem given_reordered (name : String) :
    ({ production with attributes } : Production).given name = production.given name := by
  have hfilter := filter_eq_of_perm hperm.symm (length_filter_le_one_of_nodup hdistinct name)
  unfold given
  rw [hfilter]

/-- With distinct properties, each keeps its block when attributes change places. -/
theorem propertyBlock_reordered (name : String) :
    ({ production with attributes } : Production).propertyBlock name =
      production.propertyBlock name := by
  rw [propertyBlock, propertyBlock, given_reordered hdistinct hperm]

theorem value_reordered (scope : Scope) (name : String) :
    ({ production with attributes } : Production).value scope name =
      production.value scope name := by
  rw [value, value, given_reordered hdistinct hperm]

/-- With distinct properties, the component is called with the same properties in another order. -/
theorem properties_perm (scope : Scope) (html : String) :
    (production.properties scope html).Perm
      (({ production with attributes } : Production).properties scope html) := by
  unfold properties
  simp only [value_reordered hdistinct hperm, propertyNames_reordered hdistinct hperm,
    propertyNames_of_nodup hdistinct]
  exact ((hperm.symm.map _).map _).append_right _

end Distinct

/-- The names of the properties that a component gets. -/
theorem names_properties (production : Production) (scope : Scope) (html : String) :
    Bindings.names (production.properties scope html) =
      production.propertyNames ++ if production.innerMarkup = [] then [] else [childrenProperty] := by
  rw [Bindings.names, properties, List.map_append, List.map_map]
  congr 1
  · exact List.map_id' _
  · split <;> rfl

/-- A tag that is compiled calls its component with distinct properties. -/
theorem nodup_names_properties {invocation : Invocation}
    (hcompile : production.compile = .ok invocation) (scope : Scope) (html : String) :
    (Bindings.names (production.properties scope html)).Nodup := by
  rw [names_properties]
  by_cases hinner : production.innerMarkup = []
  · rw [if_pos hinner, List.append_nil]
    exact production.nodup_propertyNames
  · rw [if_neg hinner]
    have hfree := (statements_of_compile hcompile).2 hinner
    exact List.Nodup.append production.nodup_propertyNames (List.nodup_singleton _)
      (List.disjoint_singleton.2 hfree)

/-- The inner markup has no reserved name. -/
theorem reserved_names_properties (hdistinct : (production.attributes.map Attribute.property).Nodup)
    (scope : Scope) (html : String) :
    ((Bindings.names (production.properties scope html)).filter
        reservedProperties.contains).length =
      (production.attributes.filter fun given =>
        reservedProperties.contains given.property).length := by
  have hchildren : (if production.innerMarkup = [] then [] else [childrenProperty]).filter
      reservedProperties.contains = [] := by
    split
    · rfl
    · rfl
  rw [names_properties, List.filter_append, hchildren, List.append_nil,
    propertyNames_of_nodup hdistinct, List.filter_map, List.length_map, Function.comp_def]

/-- Tags with the same inner markup whose components are answered with the same markup. -/
theorem result_effect_congr {production other : Production} {host : Host} {scope : Scope}
    {inner : Effect} (h : ∀ html, (host (production.call scope html)).map Value.toHtml =
      (host (other.call scope html)).map Value.toHtml) :
    (production.effect host scope inner).result = (other.effect host scope inner).result := by
  obtain ⟨calls, result⟩ := inner
  cases result with
  | error error => rfl
  | ok html => exact h html

end Production

namespace Renderer

/-- The component of a tag answers alike, whatever the order of the attributes. -/
theorem answer_reordered (renderer : Renderer) (levels : Nat) {production : Production}
    {attributes : List Attribute} {invocation : Invocation}
    (hperm : attributes.Perm production.attributes)
    (hdistinct : (production.attributes.map Attribute.property).Nodup)
    (hcompile : production.compile = .ok invocation)
    (hreserved : (production.attributes.filter fun given =>
      reservedProperties.contains given.property).length ≤ 1) (scope : Scope) (html : String) :
    Alike Value.Reordered (renderer.host levels (production.call scope html))
      (renderer.host levels (({ production with attributes } : Production).call scope html)) := by
  apply renderer.host_reordered levels
  · rfl
  apply componentContext_perm
  · exact Production.properties_perm hdistinct hperm scope html
  · exact Production.nodup_names_properties hcompile scope html
  · change ((Bindings.names (production.properties scope html)).filter _).length ≤ 1
    rw [Production.reserved_names_properties hdistinct scope html]
    exact hreserved

/-- The page that a tag by itself makes. -/
theorem renderPage_statements {production : Production} {invocation : Invocation}
    (hcompile : production.compile = .ok invocation) (hinner : PageBody production.innerMarkup)
    (renderer : Renderer) (data : Value) :
    let host := renderer.host renderer.nestingLimit
    let scope := Scope.ofRoot data
    renderer.renderPage invocation.statements data =
      (production.effect host scope
        (runMachine host scope production.innerMarkup).effect).result := by
  rw [renderPage, runProgram_eq_effect, effect_statements hcompile hinner]

/-- **Order of attributes**: a tag whose attributes name distinct properties compiles exactly if it does
with its attributes in any other order. Then the blocks of its code and the properties of its component
stand in that order, and what is rendered is the same, page or error, as long as one of the properties
at most has a reserved name. -/
theorem renderPage_reordered {production : Production} {attributes : List Attribute}
    (hperm : attributes.Perm production.attributes)
    (hdistinct : (production.attributes.map Attribute.property).Nodup) :
    let other : Production := { production with attributes }
    ((∃ invocation, other.compile = .ok invocation) ↔
        ∃ invocation, production.compile = .ok invocation) ∧
      (∀ scope html, Bindings.names (other.properties scope html) =
        attributes.map Attribute.property ++
          if production.innerMarkup = [] then [] else [childrenProperty]) ∧
      ∀ invocation invocation', production.compile = .ok invocation →
        other.compile = .ok invocation' →
        invocation'.statements =
          .beginProps :: ((attributes.map Attribute.property).flatMap production.propertyBlock ++
            production.childrenBlock ++ [.renderComponent production.name .page]) ∧
        (PageBody production.innerMarkup →
          (production.attributes.filter fun given =>
            reservedProperties.contains given.property).length ≤ 1 →
          ∀ (renderer : Renderer) (data : Value),
            renderer.renderPage invocation'.statements data =
              renderer.renderPage invocation.statements data) := by
  intro other
  refine ⟨?_, ?_, fun invocation invocation' hcompile hcompile' => ⟨?_, ?_⟩⟩
  · rw [Production.compile_ok_iff, Production.compile_ok_iff]
    exact Production.acceptable_perm hperm
  · intro scope html
    rw [Production.names_properties, Production.propertyNames_reordered hdistinct hperm]
    rfl
  · have hblocks : other.propertyBlock = production.propertyBlock :=
      funext (Production.propertyBlock_reordered hdistinct hperm)
    rw [(Production.statements_of_compile hcompile').1, hblocks,
      Production.propertyNames_reordered hdistinct hperm]
    rfl
  · intro hinner hreserved renderer data
    let scope := Scope.ofRoot data
    -- Both tags run the same inner markup, and then ask for their components.
    rw [renderPage_statements hcompile hinner, renderPage_statements hcompile' hinner]
    apply Production.result_effect_congr
    intro html
    have hanswer := renderer.answer_reordered renderer.nestingLimit hperm hdistinct hcompile hreserved
      scope html
    exact (hanswer.map_eq fun _ _ => Value.Reordered.toHtml_eq).symm

/-- A tag that stands inside the next one. -/
def linkTag : Production :=
  { name := "Link", attributes := [{ name := "to", value := [.value (Lookup.ofPath "Url")] }] }

/-- A tag with names written in quotes, one of which is the field of the component's own name. -/
def bannerTag : Production :=
  { name := "Banner"
    attributes := [
      { name := "title", value := [.literal "<", .value (Lookup.ofPath "Title")] },
      { name := "'ComponentName'", value := [.literal "Hero"] },
      { name := "\"items\"", value := [.value (Lookup.ofPath "Items")] }]
    children := some ((linkTag.compile.toOption.map (·.statements)).getD []) }

/-- Its attributes the other way round. -/
def bannerAttributes : List Attribute :=
  bannerTag.attributes.reverse

def bannerStore : TemplateStore :=
  [("components/Banner", "$ComponentName: $title ($items.Count) $children"),
    ("Includes/Link", "<a href=\"$to\">$ComponentName</a>")]

/-- The banner with its attributes the other way round is other code, and the same page. -/
theorem renderPage_reordered_banner :
    let other : Production := { bannerTag with attributes := bannerAttributes }
    let renderer : Renderer := { viewer := Viewer.ofStore bannerStore }
    let data : Value := .record [("Title", .text "&"), ("Url", .text "/"),
      ("Items", .list [.null, .text "x"])]
    ∃ invocation invocation', bannerTag.compile = .ok invocation ∧ other.compile = .ok invocation' ∧
      (bannerTag.properties (Scope.ofRoot data) "").map (·.1) =
        ["title", "ComponentName", "items", "children"] ∧
      (other.properties (Scope.ofRoot data) "").map (·.1) =
        ["items", "ComponentName", "title", "children"] ∧
      invocation.toSource ≠ invocation'.toSource ∧
      renderer.renderPage invocation'.statements data =
        renderer.renderPage invocation.statements data ∧
      (renderer.renderPage invocation.statements data).toOption =
        some "Hero: &lt;&amp; (2) <a href=\"/\">Link</a>" := by
  intro other renderer data
  have hdistinct : (bannerTag.attributes.map Attribute.property).Nodup := by decide +kernel
  have hinner : PageBody bannerTag.innerMarkup := by
    have htag := PageBody.tag (show linkTag.compile = .ok _ from rfl) .nil .nil
    rwa [List.append_nil] at htag
  have hcompile : bannerTag.compile = .ok _ := rfl
  have hcompile' : other.compile = .ok _ := rfl
  obtain ⟨_, hnames, hcode⟩ :=
    renderPage_reordered (List.reverse_perm bannerTag.attributes) hdistinct
  obtain ⟨_, hsame⟩ := hcode _ _ hcompile hcompile'
  exact ⟨_, _, hcompile, hcompile', by decide +kernel, by decide +kernel, by decide +kernel,
    hsame hinner (by decide +kernel) renderer data, by decide +kernel⟩

end Renderer

end ComponentTemplates
