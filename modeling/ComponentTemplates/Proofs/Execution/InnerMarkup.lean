/-
Module: ComponentTemplates.Proofs.Execution.InnerMarkup
Purpose: Page markup as the inner markup of a tag. Sent there, it asks the host for the same components as
  on the page and ends the same way, and what it would add to the page it adds to the inner markup that
  has been begun; tags inside it keep building maps of their own (`PageBody.executeAll_retargetAll`).
Main exports: PageBody.executeAll_retargetAll
-/
import ComponentTemplates.Proofs.Execution.PageBody

namespace ComponentTemplates

/-- What inner markup adds to a map of properties shows in one place of the map. -/
theorem Machine.exists_written_children {machine : Machine} {frame : Slots} {outer : List Slots}
    {html : String} (hframes : machine.frames = frame :: outer)
    (hslot : Bindings.get? frame childrenProperty = some (.markup html)) :
    ∃ before after, frame = before ++ (childrenProperty, .markup html) :: after ∧
      childrenProperty ∉ Bindings.names before ∧ ∀ more, machine.written .children more =
        { machine with
          frames := (before ++ (childrenProperty, .markup (html ++ more)) :: after) :: outer } := by
  obtain ⟨before, after, hframe, hbefore, hinsert⟩ := Bindings.exists_place_of_get? hslot
  refine ⟨before, after, hframe, hbefore, ?_⟩
  intro more
  calc machine.written .children more
      = ({ machine with frames := frame :: outer } : Machine).written .children more := by
        rw [← hframes]
    _ = { machine with
          frames := Bindings.insert frame childrenProperty (.markup (html ++ more)) :: outer } :=
        machine.written_children hslot more
    _ = { machine with
          frames := (before ++ (childrenProperty, .markup (html ++ more)) :: after) :: outer } := by
        rw [hinsert]

/-- **Inner markup**: page markup run where inner markup has been begun, compared with the same markup run
on a page from the same scope. The calls are the same ones in the same order, each with its properties
and its scope, and the one run fails exactly if the other does, with the same error. If they succeed, the
one adds to the inner markup what the other adds to the page, and leaves the page, the other slots of the
map and all maps around it as they are. -/
theorem PageBody.executeAll_retargetAll {statements : List Statement} (hbody : PageBody statements)
    (host : Host) {page inside : Machine} (hscope : inside.scope = page.scope) {frame : Slots}
    {outer : List Slots} {html : String} (hframes : inside.frames = frame :: outer)
    (hslot : Bindings.get? frame childrenProperty = some (.markup html)) :
    let onPage := executeAll host statements page
    let nested := executeAll host (Statement.retargetAll .children statements) inside
    ∃ made, onPage.2.calls = page.calls ++ made ∧ nested.2.calls = inside.calls ++ made ∧
      nested.1 = onPage.1 ∧
      (nested.1 = .ok () → ∃ more before after,
        frame = before ++ (childrenProperty, .markup html) :: after ∧
        childrenProperty ∉ Bindings.names before ∧
        onPage.2 = { page with page := page.page ++ more, calls := page.calls ++ made } ∧
        nested.2 = { inside with
          frames := (before ++ (childrenProperty, .markup (html ++ more)) :: after) :: outer
          calls := inside.calls ++ made }) := by
  intro onPage nested
  obtain ⟨⟨made, result⟩, _, hleads⟩ := hbody.hasEffect host page.scope
  have hpage : Effect.Leads ⟨made, result⟩ page (page.written .page)
      (executeAll host (Statement.retargetAll .page statements) page) :=
    hleads .page page rfl trivial
  rw [Statement.retargetAll_page] at hpage
  change Effect.Leads _ _ _ onPage at hpage
  have hnested : Effect.Leads ⟨made, result⟩ inside (inside.written .children) nested :=
    hleads .children inside hscope ⟨frame, outer, html, hframes, hslot⟩
  refine ⟨made, ?_⟩
  cases result with
  | error error =>
      obtain ⟨hpage, hpageCalls⟩ := hpage
      obtain ⟨hnested, hnestedCalls⟩ := hnested
      refine ⟨hpageCalls, hnestedCalls, hnested.trans hpage.symm, ?_⟩
      rw [hnested]
      exact nofun
  | ok more =>
      obtain ⟨before, after, hframe, hbefore, hwritten⟩ :=
        Machine.exists_written_children hframes hslot
      have hpage : onPage = ((page.written .page more).calling made).done := hpage
      have hnested : nested = ((inside.written .children more).calling made).done := hnested
      rw [hwritten] at hnested
      rw [hpage, hnested]
      exact ⟨rfl, rfl, rfl, fun _ => ⟨more, before, after, hframe, hbefore, rfl, rfl⟩⟩

/-- A tag with a property and with inner markup that reads from the scope. -/
def tileTag : Production :=
  { name := "Tile"
    attributes := [{ name := "size", value := [.literal "big"] }]
    children := some [.append .page (.value (Lookup.ofPath "Title"))] }

/-- A list of tiles, as page markup. -/
def tilesMarkup : List Statement :=
  [.append .page (.literal "<ul>"),
    .loop (Lookup.ofPath "Items") ((tileTag.compile.toOption.map (·.statements)).getD [])]

/-- A page with two tiles to show. -/
def tilesPage : Machine :=
  { scope := Scope.ofRoot (.record [("Items", .list [
      .record [("Title", .text "<")], .record [("Title", .text "b")]])])
    page := "page:" }

/-- A host that answers with the name of the component and the inner markup that it is given. -/
def frameHost : Host := fun call =>
  .ok (.html (call.component ++ "[" ++
    ((Bindings.get? call.properties childrenProperty).map Value.toHtml).getD "" ++ "]"))

/-- The inner markup of one tag, begun between two other properties, inside that of another tag. -/
def tilesInside : Machine :=
  { tilesPage with
    frames := [
      [("title", .done (.text "t")), (childrenProperty, .markup "in:"), ("open", .parts [])],
      [(childrenProperty, .markup "out:")]] }

/-- The tiles on a page, and as inner markup begun between two properties: the same calls are made, and
the markup goes where it is meant to. -/
theorem PageBody.executeAll_retargetAll_tiles :
    let onPage := executeAll frameHost tilesMarkup tilesPage
    let nested := executeAll frameHost (Statement.retargetAll .children tilesMarkup) tilesInside
    PageBody tilesMarkup ∧ tilesInside.scope = tilesPage.scope ∧
      onPage.2.page = "page:<ul>Tile[&lt;]Tile[b]" ∧ nested.1 = .ok () ∧
      nested.2.calls = onPage.2.calls ∧ nested.2.page = "page:" ∧
      (nested.2.frames.map fun frame =>
          (Slots.properties frame).map fun property => (property.1, property.2.toHtml)) =
        [[("title", "t"), ("children", "in:<ul>Tile[&lt;]Tile[b]"), ("open", "")],
          [("children", "out:")]] := by
  intro onPage nested
  have htile : PageBody ((tileTag.compile.toOption.map (·.statements)).getD []) := by
    have htag := PageBody.tag (show tileTag.compile = .ok _ from rfl) (.append _ .nil) .nil
    rwa [List.append_nil] at htag
  have htiles : PageBody tilesMarkup := .append _ (.loop _ htile .nil)
  obtain ⟨made, hpage, hnested, _, hdone⟩ :=
    htiles.executeAll_retargetAll frameHost (show tilesInside.scope = tilesPage.scope from rfl)
      (show tilesInside.frames = _ :: _ from rfl) rfl
  have hok : nested.1 = .ok () := by decide +kernel
  obtain ⟨more, before, after, _, _, _, hafter⟩ := hdone hok
  refine ⟨htiles, rfl, ?_, hok, ?_, ?_, ?_⟩
  · decide +kernel
  · rw [hnested, hpage]
    rfl
  · rw [hafter]
    rfl
  · decide +kernel

end ComponentTemplates
