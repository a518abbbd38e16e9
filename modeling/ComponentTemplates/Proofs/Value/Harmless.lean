/-
Module: ComponentTemplates.Proofs.Value.Harmless
Purpose: Values that can write nothing but clean markup: their text is escaped, and what markup they hold is
  clean already. Whatever an execution makes out of such values is such a value again, so that they
  correspond to themselves (`Correspondence.clean`).
Main exports: Value.Harmless, Value.Harmless.toHtml, Correspondence.clean
-/
import ComponentTemplates.Proofs.Correspondence.Basic
import ComponentTemplates.Proofs.Text.Markup

namespace ComponentTemplates

open Text.Markup

namespace Value

/-- No methods, and no markup that is not clean, at any depth. Text may be any text. -/
inductive Harmless : Value → Prop where
  | null : Harmless .null
  | bool (flag : Bool) : Harmless (.bool flag)
  | text (content : String) : Harmless (.text content)
  | html {content : String} (h : Clean content) : Harmless (.html content)
  | field (name : String) {parts : List Value} (h : ∀ part ∈ parts, Harmless part) :
      Harmless (.field name parts)
  | record {fields : List (String × Value)} (h : ∀ field ∈ fields, Harmless field.2) :
      Harmless (.record fields)
  | list {items : List Value} (h : ∀ item ∈ items, Harmless item) : Harmless (.list items)

namespace Harmless

variable {value : Value}

theorem clean_partsHtml {parts : List Value} (h : ∀ part ∈ parts, Clean part.toHtml) :
    Clean (partsHtml parts) := by
  induction parts with
  | nil => exact trivial
  | cons part rest ih =>
      rw [partsHtml]
      apply clean_append (h part (List.mem_cons_self ..))
      exact ih fun other hother => h other (List.mem_cons_of_mem _ hother)

/-- A record whose fields have clean markup has clean markup. -/
theorem clean_templateHtml {fields : List (String × Value)}
    (h : ∀ field ∈ fields, Clean field.2.toHtml) : Clean (templateHtml fields) := by
  induction fields with
  | nil => exact trivial
  | cons field rest ih =>
      obtain ⟨name, value⟩ := field
      rw [templateHtml]
      split
      · exact h _ (List.mem_cons_self ..)
      · exact ih fun other hother => h other (List.mem_cons_of_mem _ hother)

/-- A harmless value has clean markup. -/
theorem toHtml (h : Harmless value) : Clean value.toHtml := by
  induction h with
  | null => exact trivial
  | bool flag => cases flag <;> decide
  | text content => exact clean_escape content
  | html h => exact h
  | field name _ ih => exact clean_partsHtml ih
  | record _ ih => exact clean_templateHtml ih
  | list _ _ => exact trivial

theorem eq_of_mem_ite {condition : Bool} {item : Value}
    (h : item ∈ if condition then [value] else []) : item = value := by
  cases condition with
  | true => exact List.mem_singleton.1 h
  | false => cases h

theorem items (h : Harmless value) : ∀ item ∈ value.items, Harmless item := by
  induction h with
  | null => exact nofun
  | @field name parts h ih =>
      intro item hitem
      cases parts with
      | nil => cases hitem
      | cons part rest =>
          cases rest with
          | nil => exact ih part (List.mem_singleton_self part) item hitem
          | cons _ _ => cases hitem
  | list h _ => exact h
  | bool flag =>
      intro item hitem
      rw [eq_of_mem_ite hitem]
      exact .bool flag
  | text content =>
      intro item hitem
      rw [eq_of_mem_ite hitem]
      exact .text content
  | html h =>
      intro item hitem
      rw [eq_of_mem_ite hitem]
      exact .html h
  | record h _ =>
      intro item hitem
      rw [eq_of_mem_ite hitem]
      exact .record h

theorem lookupField {fields : List (String × Value)} (h : ∀ field ∈ fields, Harmless field.2)
    (step : Lookup.Step) : Harmless (lookupField fields step) := by
  unfold Value.lookupField
  split
  · rename_i identity call hmethod
    have hfield := h _ (Bindings.mem_of_get? hmethod)
    cases hfield
  · rename_i value _ hvalue
    exact h _ (Bindings.mem_of_get? hvalue)
  · exact .null

theorem lookupItem {items : List Value} (h : ∀ item ∈ items, Harmless item)
    (step : Lookup.Step) : Harmless (lookupItem items step) := by
  unfold Value.lookupItem
  split
  · exact .text _
  · split
    · cases items with
      | nil => exact .null
      | cons item _ => exact h item (List.mem_cons_self ..)
    · split
      · cases hlast : items.getLast? with
        | none => exact .null
        | some item => exact h item (List.mem_of_getLast? hlast)
      · exact .null

theorem lookup (h : Harmless value) (step : Lookup.Step) : Harmless (value.lookup step) := by
  induction h with
  | record h _ => exact lookupField h step
  | list h _ => exact lookupItem h step
  | @field name parts _ ih =>
      cases parts with
      | nil => exact .null
      | cons part rest =>
          cases rest with
          | nil => exact ih part (List.mem_singleton_self part)
          | cons _ _ => exact .null
  | _ => exact .null

/-- A property of harmless parts is harmless. -/
theorem createProperty (name : String) {parts : List Value} (h : ∀ part ∈ parts, Harmless part) :
    Harmless (createProperty name parts) := by
  unfold Value.createProperty
  split
  · split
    · exact .field name h
    · exact h _ (List.mem_singleton_self _)
  · exact .field name h

theorem forall₂_iff {values values' : List Value} :
    List.Forall₂ (fun left right => Harmless left ∧ left = right) values values' ↔
      (∀ value ∈ values, Harmless value) ∧ values = values' := by
  rw [List.forall₂_and_left, List.forall₂_eq_eq_eq]

theorem related_iff {fields fields' : List (String × Value)} :
    Bindings.Related (fun left right => Harmless left ∧ left = right) fields fields' ↔
      (∀ field ∈ fields, Harmless field.2) ∧ fields = fields' := by
  have hpair : (fun left right : String × Value =>
      left.1 = right.1 ∧ Harmless left.2 ∧ left.2 = right.2) =
        fun left right => Harmless left.2 ∧ left = right := by
    funext left right
    rw [Prod.ext_iff, and_left_comm]
  unfold Bindings.Related
  rw [hpair, List.forall₂_and_left, List.forall₂_eq_eq_eq]

end Harmless

end Value

/-- Harmless values stand for themselves, and write clean markup. -/
def Correspondence.clean : Correspondence where
  value left right := Value.Harmless left ∧ left = right
  markup left right := Clean left ∧ left = right
  markup_empty := ⟨trivial, rfl⟩
  markup_append := by
    rintro left _ right _ ⟨hleft, rfl⟩ ⟨hright, rfl⟩
    exact ⟨clean_append hleft hright, rfl⟩
  null := ⟨.null, rfl⟩
  bool flag := ⟨.bool flag, rfl⟩
  text content := ⟨.text content, rfl⟩
  html := by
    rintro content _ ⟨hcontent, rfl⟩
    exact ⟨.html hcontent, rfl⟩
  record := by
    intro fields fields' h
    obtain ⟨hfields, rfl⟩ := Value.Harmless.related_iff.1 h
    exact ⟨.record hfields, rfl⟩
  createProperty := by
    intro name parts parts' h
    obtain ⟨hparts, rfl⟩ := Value.Harmless.forall₂_iff.1 h
    exact ⟨.createProperty name hparts, rfl⟩
  hasValue := by
    rintro value _ ⟨_, rfl⟩
    rfl
  toHtml := by
    rintro value _ ⟨hvalue, rfl⟩
    exact ⟨hvalue.toHtml, rfl⟩
  lookup := by
    rintro value _ step ⟨hvalue, rfl⟩
    exact ⟨hvalue.lookup step, rfl⟩
  items := by
    rintro value _ ⟨hvalue, rfl⟩
    exact Value.Harmless.forall₂_iff.2 ⟨hvalue.items, rfl⟩
  provides := by
    rintro value _ name ⟨_, rfl⟩
    rfl

end ComponentTemplates
