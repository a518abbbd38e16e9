/-
Module: ComponentTemplates.Proofs.Invocation.Targets
Purpose: Where the code of a tag writes to. Whatever its inner markup is, be it made by a compiler or not,
  the code writes to the page in its last statement only, where the component is rendered; what the inner
  markup would write there goes to the property `children`, and nothing else of it is changed
  (`Production.compile_targets`).
Main exports: Production.compile_targets
-/
import ComponentTemplates.Proofs.Invocation.Shape

namespace ComponentTemplates

/-- Redirecting to the children moves what goes to the page, and nothing else. -/
theorem Target.children_redirect :
    Target.children.redirect = fun target => if target = .page then .children else target := by
  funext target
  cases target with
  | page => rfl
  | property name => rfl
  | children => rfl

namespace Production

open Statement

/-- **Targets**: the code of an accepted tag ends with the rendering of its component to the page, and
nothing in front of that, at any depth, writes to the page. The inner markup, if there is any, stands
behind the blocks of all attributes, between the statements that begin and seal the property `children`.
It is the one program that has the skeleton of the inner markup as it was given, and its targets in the
same order with `children` in place of the page; retargeting does not reach it any more. -/
theorem compile_targets {production : Production} {invocation : Invocation}
    (h : production.compile = .ok invocation) :
    let markup := production.innerMarkup
    let blocks := production.propertyNames.flatMap production.propertyBlock
    ∃ nested : List Statement,
      invocation.statements = .beginProps :: blocks ++
          (if markup = [] then [] else .initChildren :: nested ++ [.sealChildren]) ++
          [.renderComponent production.name .page] ∧
      .page ∉ targetsAll invocation.statements.dropLast ∧
      (∀ other, other = nested ↔ skeletonAll other = skeletonAll markup ∧
        targetsAll other =
          (targetsAll markup).map fun target => if target = .page then .children else target) ∧
      ∀ target, retargetAll target nested = nested := by
  intro markup blocks
  have hstatements : invocation.statements = .beginProps :: blocks ++ production.childrenBlock ++
      [.renderComponent production.name .page] := (statements_of_compile h).1
  refine ⟨retargetAll .children markup, hstatements, ?page, ?nested, ?again⟩
  case page =>
    -- Retargeting leaves all but the last statement alone, so nothing there writes to the page.
    have hblocks : retargetAll .children blocks = blocks :=
      production.retargetAll_propertyBlocks .children production.propertyNames
    have hchildren : retargetAll .children production.childrenBlock = production.childrenBlock :=
      production.retargetAll_childrenBlock .children
    have hmoves : Target.children ≠ .page := nofun
    rw [hstatements, List.dropLast_concat, ← retargetAll_eq_self_iff hmoves, retargetAll_append,
      List.cons_append, retargetAll, hblocks, hchildren]
    rfl
  case nested =>
    intro other
    rw [eq_retargetAll_iff, Target.children_redirect]
  case again =>
    intro target
    exact retargetAll_children target markup

/-- Inner markup that writes to the page in a later branch, in an else part and in a loop, renders a
component there, and writes elsewhere too. -/
def panelMarkup : List Statement :=
  [.choose
      [⟨Lookup.ofPath "Open", [.append (.property "note") (.literal "a")]⟩,
        ⟨Lookup.ofPath "Items", [.loop (Lookup.ofPath "Items") [.renderComponent "Item" .page]]⟩]
      (some [.append .page (.literal "none"), .append .children (.literal "!")]),
    .within (Lookup.ofPath "Owner") [.append .page (.value (Lookup.ofPath "Name"))]]

/-- A tag with an attribute around that markup. -/
def panelTag : Production :=
  { name := "Panel"
    attributes := [{ name := "title", value := [.literal "t"] }]
    children := some panelMarkup }

/-- The panel as the inner markup of a tag: what it writes to the page goes to the children. -/
theorem compile_targets_panel :
    ∃ invocation nested, panelTag.compile = .ok invocation ∧
      targetsAll panelMarkup = [.property "note", .page, .page, .children, .page] ∧
      targetsAll nested = [.property "note", .children, .children, .children, .children] ∧
      skeletonAll nested = skeletonAll panelMarkup ∧
      targetsAll invocation.statements =
        [.property "title", .property "note", .children, .children, .children, .children, .page] ∧
      .page ∉ targetsAll invocation.statements.dropLast := by
  obtain ⟨nested, _, hpage, hnested, _⟩ :=
    compile_targets (show panelTag.compile = .ok _ from rfl)
  obtain ⟨hskeleton, htargets⟩ := (hnested nested).1 rfl
  exact ⟨_, nested, rfl, rfl, htargets, hskeleton, rfl, hpage⟩

end Production

end ComponentTemplates
