/-
Module: ComponentTemplates.Proofs.Correspondence.Basic
Purpose: Values that templates cannot tell apart. A correspondence relates values to values and markup
  to markup such that everything that an execution asks of a value or makes out of values has
  related answers. It extends to scopes, so that every lookup has related answers too.
Main exports: Correspondence, Correspondence.ScopesMatch, Correspondence.ScopesMatch.resolve
-/
import ComponentTemplates.Proofs.Bindings
import ComponentTemplates.Scope

namespace ComponentTemplates

/-- Values, and pieces of markup, that stand for one another wherever an execution meets them. -/
structure Correspondence where
  value : Value → Value → Prop
  markup : String → String → Prop
  markup_empty : markup "" ""
  markup_append {left left' right right' : String} :
    markup left left' → markup right right' → markup (left ++ right) (left' ++ right')
  null : value .null .null
  bool (flag : Bool) : value (.bool flag) (.bool flag)
  text (content : String) : value (.text content) (.text content)
  html {content content' : String} : markup content content' → value (.html content) (.html content')
  record {fields fields' : List (String × Value)} :
    Bindings.Related value fields fields' → value (.record fields) (.record fields')
  createProperty (name : String) {parts parts' : List Value} :
    List.Forall₂ value parts parts' →
      value (Value.createProperty name parts) (Value.createProperty name parts')
  hasValue {left right : Value} : value left right → left.hasValue = right.hasValue
  toHtml {left right : Value} : value left right → markup left.toHtml right.toHtml
  lookup {left right : Value} (step : Lookup.Step) :
    value left right → value (left.lookup step) (right.lookup step)
  items {left right : Value} : value left right → List.Forall₂ value left.items right.items
  provides {left right : Value} (name : String) :
    value left right → left.provides name = right.provides name

namespace Correspondence

variable (R : Correspondence)

/-- Frames with related values in the same position of a loop. -/
structure FramesMatch (left right : Scope.Frame) : Prop where
  item : R.value left.item right.item
  position : left.position = right.position

/-- Scopes with related values all the way up. -/
structure ScopesMatch (left right : Scope) : Prop where
  root : R.value left.root right.root
  inner : List.Forall₂ R.FramesMatch left.inner right.inner

variable {R}

theorem lookupAll {left right : Value} (h : R.value left right) (steps : List Lookup.Step) :
    R.value (left.lookupAll steps) (right.lookupAll steps) := by
  induction steps generalizing left right with
  | nil => exact h
  | cons step rest ih => exact ih (R.lookup step h)

/-- The search for a name ends at the same height. -/
theorem find?_provides {frames frames' : List Scope.Frame}
    (h : List.Forall₂ R.FramesMatch frames frames') (name : String) :
    Option.Rel R.FramesMatch (frames.find? fun frame => frame.item.provides name)
      (frames'.find? fun frame => frame.item.provides name) := by
  induction h with
  | nil => exact .none
  | cons hframe _ ih =>
      rw [List.find?_cons, List.find?_cons, R.provides name hframe.item]
      split
      · exact .some hframe
      · exact ih

theorem ScopesMatch.ofRoot {left right : Value} (h : R.value left right) :
    R.ScopesMatch (Scope.ofRoot left) (Scope.ofRoot right) :=
  ⟨h, .nil⟩

namespace ScopesMatch

variable {left right : Scope} (h : R.ScopesMatch left right)

include h

theorem push {item item' : Value} (hitem : R.value item item') :
    R.ScopesMatch (left.push item) (right.push item') :=
  ⟨h.root, .cons ⟨hitem, rfl⟩ h.inner⟩

/-- Related items may be brought into related scopes, at the same position of a loop. -/
theorem pushItem {item item' : Value} (hitem : R.value item item') (index total : Nat) :
    R.ScopesMatch (left.pushItem item index total) (right.pushItem item' index total) :=
  ⟨h.root, .cons ⟨hitem, rfl⟩ h.inner⟩

theorem pop : R.ScopesMatch left.pop right.pop := by
  obtain ⟨root, inner⟩ := left
  obtain ⟨root', inner'⟩ := right
  obtain ⟨hroot, hinner⟩ := h
  refine ⟨hroot, ?_⟩
  cases hinner with
  | nil => exact .nil
  | cons hframe hrest => exact hrest

theorem frames : List.Forall₂ R.FramesMatch left.frames right.frames :=
  List.rel_append h.inner (.cons ⟨h.root, rfl⟩ .nil)

theorem innermost : R.FramesMatch left.innermost right.innermost := by
  obtain ⟨root, inner⟩ := left
  obtain ⟨root', inner'⟩ := right
  obtain ⟨hroot, hinner⟩ := h
  cases hinner with
  | nil => exact ⟨hroot, rfl⟩
  | cons hframe hrest => exact hframe

/-- What the scope itself stands for under a name is text or a truth value, or the root. -/
theorem builtin? (name : String) :
    Option.Rel R.value (left.builtin? name) (right.builtin? name) := by
  unfold Scope.builtin?
  rw [R.provides name h.innermost.item, h.innermost.position]
  split
  · exact .none
  · split
    · exact .some h.root
    · cases right.innermost.position with
      | none => exact .none
      | some position =>
          change Option.Rel R.value (position.answer? name) (position.answer? name)
          unfold Scope.Position.answer?
          split
          · exact .some (R.text _)
          · split
            · exact .some (R.bool _)
            · split
              · exact .some (R.bool _)
              · exact .none

/-- The first step of a lookup has related answers in related scopes. -/
theorem resolveFirst (step : Lookup.Step) :
    R.value (left.resolveFirst step) (right.resolveFirst step) := by
  have hbuiltin := h.builtin? step.name
  unfold Scope.resolveFirst
  cases hleft : left.builtin? step.name <;> cases hright : right.builtin? step.name <;>
    rw [hleft, hright] at hbuiltin
  · have hfound := find?_provides h.frames step.name
    revert hfound
    dsimp only
    generalize left.frames.find? _ = frame
    generalize right.frames.find? _ = frame'
    intro hfound
    cases hfound with
    | none => exact R.null
    | some hframe => exact R.lookup step hframe.item
  · cases hbuiltin
  · cases hbuiltin
  · cases hbuiltin with
    | some hvalue => exact hvalue

/-- Lookups in matching scopes have related answers. -/
theorem resolve (steps : List Lookup.Step) :
    R.value (left.resolve steps) (right.resolve steps) := by
  cases steps with
  | nil => exact h.innermost.item
  | cons first rest => exact lookupAll (h.resolveFirst first) rest

end ScopesMatch

end Correspondence

end ComponentTemplates
