/-
Module: ComponentTemplates.Proofs.Execution.LoopPosition
Purpose: Where a loop stands, as seen from its body. The scope answers the names of a position for its
  innermost frame alone, and searches the frames for nothing but what their values provide. So a loop tells
  its position everywhere in its body, also behind an inner loop, but for the scope blocks in it: there
  the names are looked up in what is around the loop (`execute_loop_position`).
Main exports: Scope.search, Scope.resolve_position, execute_loop_position
-/
import ComponentTemplates.Proofs.Execution.Points

namespace ComponentTemplates

namespace Scope

/-- The answer of the innermost value that provides the name. -/
def search (scope : Scope) (step : Lookup.Step) : Value :=
  match scope.frames.find? fun frame => frame.item.provides step.name with
  | some frame => frame.item.lookup step
  | none => .null

/-- The frames of scope blocks with these values. -/
def blocks (values : List Value) : List Frame :=
  values.map fun item => { item }

variable {scope : Scope} {step : Lookup.Step}

/-- A lookup of one name is answered by the scope itself, or else by the first value that provides the
name. -/
theorem resolve_singleton (scope : Scope) (step : Lookup.Step) :
    scope.resolve [step] = (scope.builtin? step.name).getD (scope.search step) := by
  change scope.resolveFirst step = _
  unfold resolveFirst search
  cases scope.builtin? step.name with
  | none => rfl
  | some value => rfl

/-- A search goes past the frames whose values do not provide the name. -/
theorem search_beneath {frames : List Frame}
    (h : ∀ frame ∈ frames, frame.item.provides step.name = false) :
    (scope.beneath frames).search step = scope.search step := by
  have hnone : frames.find? (fun frame => frame.item.provides step.name) = none := by
    rw [List.find?_eq_none]
    intro frame hframe
    rw [h frame hframe]
    exact Bool.false_ne_true
  have hframes : (scope.beneath frames).frames = frames ++ scope.frames := by
    simp [beneath, Scope.frames]
  unfold search
  rw [hframes, List.find?_append, hnone, Option.none_or]

/-- A name of a position does not ask for the root. -/
theorem Position.ne_top_of_answer? {position : Position} {name : String} {value : Value}
    (h : position.answer? name = some value) : name ≠ "Top" := by
  rintro rfl
  cases h

/-- Over the item of a loop and scope blocks on it, a name of the position that none of them provides is
answered by the loop if there is no block, and by what is around the loop if there is one. -/
theorem resolve_position {position : Position} {item value : Value} {values : List Value}
    (hvalue : position.answer? step.name = some value)
    (hfree : ∀ other ∈ item :: values, other.provides step.name = false) :
    (scope.beneath (blocks values ++ [{ item, position := some position }])).resolve [step] =
      if values.isEmpty then value else scope.search step := by
  have htop : step.name ≠ "Top" := Position.ne_top_of_answer? hvalue
  rw [resolve_singleton]
  cases values with
  | nil =>
      have hitem : item.provides step.name = false := hfree item (List.mem_cons_self ..)
      simp [builtin?, innermost, beneath, blocks, hitem, htop, hvalue]
  | cons block others =>
      have hblock : block.provides step.name = false :=
        hfree block (List.mem_cons_of_mem _ (List.mem_cons_self ..))
      have hframes : ∀ frame ∈ blocks (block :: others) ++ [{ item, position := some position }],
          frame.item.provides step.name = false := by
        intro frame hframe
        rcases List.mem_append.1 hframe with hframe | hframe
        · obtain ⟨other, hother, rfl⟩ := List.mem_map.1 hframe
          exact hfree other (List.mem_cons_of_mem _ hother)
        · rw [List.mem_singleton.1 hframe]
          exact hfree item (List.mem_cons_self ..)
      have hbuiltin : (scope.beneath
          (blocks (block :: others) ++ [{ item, position := some position }])).builtin? step.name =
            none := by
        simp [builtin?, innermost, beneath, blocks, hblock, htop]
      rw [hbuiltin, search_beneath hframes]
      rfl

end Scope

section Loop

variable {host : Host} {subject : Lookup} {body left : List Statement} {machine before point : Machine}
  {items values : List Value} {item : Value} {index : Nat}

/-- **Loop positions**: at every point that an iteration gets to outside inner loops, in branches and scope
blocks and behind whatever else, `Pos`, `First` and `Last` are answered by the loop if no scope block is
open in its body, provided that its item does not answer them; and they are searched for around the loop
if one is open, provided that neither the item nor the values of the blocks answer them. The point is one
of the run of the loop: if what is left there fails, so does the loop. -/
theorem execute_loop_position (hitems : (machine.eval subject).items = items)
    (hitem : items[index]? = some item)
    (hbefore : iterate (executeAll host body) items.length 0 (items.take index) machine = before.done)
    (hpoint : Reaches host body
      { before with scope := before.scope.pushItem item index items.length }
      (Scope.blocks values) left point) :
    (∀ name value, (name, value) ∈
        [("Pos", Value.text (toString (index + 1))), ("First", .bool (index + 1 = 1)),
          ("Last", .bool (index + 1 = items.length))] →
      (∀ other ∈ item :: values, other.provides name = false) →
        ∀ args, point.scope.resolve [{ name, args }] =
          if values.isEmpty then value else machine.scope.search { name, args }) ∧
      ∀ error failed, executeAll host left point = (.error error, failed) →
        execute host (.loop subject body) machine =
          (.error error, { failed with scope := machine.scope }) := by
  have hreaches : Reaches host [.loop subject body] machine _ left point :=
    .iteration hitems hitem hbefore hpoint
  constructor
  · intro name value hname hfree args
    let position : Scope.Position := { index := index + 1, total := items.length }
    have hvalue : position.answer? name = some value := by
      simp only [List.mem_cons, Prod.mk.injEq, List.not_mem_nil, or_false] at hname
      rcases hname with ⟨rfl, rfl⟩ | ⟨rfl, rfl⟩ | ⟨rfl, rfl⟩
      · rfl
      · rfl
      · rfl
    rw [hreaches.scope_eq]
    exact Scope.resolve_position hvalue hfree
  · intro error failed hfailed
    rw [← executeAll_singleton]
    exact hreaches.fails hfailed

end Loop

/-- The second of two chapters, behind the loop over its pages, in a branch for the last chapter. -/
theorem execute_loop_position_chapters :
    let chapter := Value.record [("Pages", .list [.text "a", .text "b", .text "c"])]
    let chapters : Lookup := { steps := [{ name := "Chapters" }] }
    let number : Statement := .append .page (.value { steps := [{ name := "Pos" }] })
    let body : List Statement :=
      [.loop { steps := [{ name := "Pages" }] } [number],
        .choose [⟨{ steps := [{ name := "Last" }] }, [number]⟩] none]
    let machine : Machine := { scope := .ofRoot (.record [("Chapters", .list [chapter, chapter])]) }
    ∃ before point : Machine,
      (machine.eval chapters).items = [chapter, chapter] ∧ [chapter, chapter][1]? = some chapter ∧
      iterate (executeAll (fun _ => .ok .null) body) 2 0 [chapter] machine = before.done ∧
      Reaches (fun _ => .ok .null) body
        { before with scope := before.scope.pushItem chapter 1 2 } (Scope.blocks []) [number] point ∧
      (∀ other ∈ [chapter], other.provides "Pos" = false) ∧
      point.scope.resolve [{ name := "Pos" }] = .text "2" ∧ point.page = "123123" := by
  intro chapter chapters number body machine
  have hitems : (machine.eval chapters).items = [chapter, chapter] := rfl
  have hitem : [chapter, chapter][1]? = some chapter := rfl
  have hfree : ∀ other ∈ [chapter], other.provides "Pos" = false := by
    simp [chapter, Value.provides, Bindings.contains, Bindings.get?]
  let host : Host := fun _ => .ok .null
  let before := (iterate (executeAll host body) 2 0 [chapter] machine).2
  let start : Machine := { before with scope := before.scope.pushItem chapter 1 2 }
  let point := (execute host (.loop { steps := [{ name := "Pages" }] } [number]) start).2
  have hbefore : iterate (executeAll host body) 2 0 [chapter] machine = before.done := rfl
  have hpoint : Reaches host body start (Scope.blocks []) [number] point :=
    .past rfl (.branch (.here _ _))
  refine ⟨before, point, hitems, hitem, hbefore, hpoint, hfree, ?_, ?_⟩
  · exact (execute_loop_position hitems hitem hbefore hpoint).1 "Pos" _ (.head _) hfree []
  · decide +kernel

/-- In a scope block the loop does not tell its position, though the value there has no answer either. -/
theorem execute_loop_position_hidden :
    let chapter := Value.record [("Title", .record [])]
    let number : Statement := .append .page (.value { steps := [{ name := "Pos" }] })
    let run := fun body => runProgram (fun _ => .ok .null)
      (.ofRoot (.record [("Chapters", .list [chapter, chapter])]))
      [.loop { steps := [{ name := "Chapters" }] } body]
    chapter.provides "Pos" = false ∧ (Value.record []).provides "Pos" = false ∧
      run [number] = .ok "12" ∧
      run [.within { steps := [{ name := "Title" }] } [number]] = .ok "" :=
  ⟨rfl, rfl, rfl, rfl⟩

end ComponentTemplates
