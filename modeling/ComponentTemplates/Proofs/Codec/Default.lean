/-
Module: ComponentTemplates.Proofs.Codec.Default
Purpose: The values that a field may have in place of being left out: those that stand for what a missing
  field stands for. All of them can be read, so that leaving one out, or putting one in, does not matter to
  whether a copy can be made.
Main exports: Field.IsDefault, Field.mild_of_mem
-/
import ComponentTemplates.Proofs.Codec.Place

namespace ComponentTemplates

open Json

/-- The value stands for what a missing field stands for. -/
def Field.IsDefault (field : Field) (passage : Passage) (value : Json) : Prop :=
  ∃ read, field.read passage none = some read ∧ field.read passage (some value) = some read

/-- Whatever may be left out of the field can be read. -/
def Field.Mild (field : Field) : Prop :=
  ∀ passage value, field.IsDefault passage value → value.readable = true

theorem forall₂_of_mapM {α β : Type} {read : α → Option β} {items : List α} {values : List β}
    (h : items.mapM read = some values) :
    List.Forall₂ (fun item value => read item = some value) items values := by
  induction items generalizing values with
  | nil =>
      cases h
      exact .nil
  | cons item rest ih =>
      rw [List.mapM_cons] at h
      simp only [Option.bind_eq_bind, Option.bind_eq_some_iff] at h
      obtain ⟨value, hvalue, others, hothers, hvalues⟩ := h
      cases hvalues
      exact .cons hvalue (ih hothers)

/-- What is read as a list is an array. -/
theorem array_of_list {form : Form} {passage : Passage} {json : Json} {values : List form.Value}
    (h : (Form.list form).decode passage json = some values) :
    ∃ items, json = .array items ∧
      List.Forall₂ (fun item value => form.decode passage item = some value) items values := by
  cases json with
  | array items =>
      rw [Form.decode, items?_array] at h
      exact ⟨items, rfl, forall₂_of_mapM h⟩
  | null | bool | number | string | object | invalid => cases h

theorem Json.readable_of_unitCase {passage : Passage} {json : Json} {name : String}
    (h : unitCase? passage json = some name) : json.readable = true := by
  match json with
  | .string _ | .object [(_, .null)] | .object [(_, .object [])] => rfl
  | .object [] | .object [(_, .bool _)] | .object [(_, .number _)] | .object [(_, .string _)]
  | .object [(_, .array _)] | .object [(_, .invalid)] | .object [(_, .object (_ :: _))]
  | .null | .bool _ | .number _ | .array _ | .invalid => cases h
  | .object (_ :: _ :: _) => simp [unitCase?] at h

theorem readable_of_decodeString {json : Json} {text : String} (h : decodeString json = some text) :
    json.readable = true := by
  cases json with
  | string => rfl
  | null | bool | number | array | object | invalid => cases h

namespace Field

variable {name : String} {form : Form}

/-- Nothing may be left out of a required field. -/
theorem mild_required : Mild ⟨name, form, .required⟩ := by
  rintro passage value ⟨read, hnone, -⟩
  cases hnone

/-- Only null may be left out of an optional field. -/
theorem mild_optional : Mild ⟨name, form, .optional⟩ := by
  rintro passage value ⟨read, hnone, hsome⟩
  cases hnone
  by_cases hvalue : value = .null
  · rw [hvalue]
    rfl
  · change decodeNullable value _ = some none at hsome
    rw [decodeNullable_of_ne hvalue, Option.map_eq_some_iff] at hsome
    obtain ⟨_, -, hread⟩ := hsome
    cases hread

/-- A field with a default is mild if whatever is read as the default is readable. -/
theorem mild_defaulted {default : form.Value}
    (h : ∀ passage value, form.decode passage value = some default → value.readable = true) :
    Mild ⟨name, form, .defaulted default⟩ := by
  rintro passage value ⟨read, hnone, hsome⟩
  cases hnone
  exact h passage value hsome

theorem mild_nothing : Mild ⟨name, .nothing, .defaulted ()⟩ := by
  refine mild_defaulted fun passage value h => ?_
  match value with
  | .null | .object [] => rfl
  | .object (_ :: _) | .bool _ | .number _ | .string _ | .array _ | .invalid => cases h

theorem mild_mode {mode : Lookup.Mode} : Mild ⟨name, .mode, .defaulted mode⟩ := by
  refine mild_defaulted fun passage value h => ?_
  cases hcase : unitCase? passage value with
  | none => simp [Form.decode, decodeMode, hcase] at h
  | some _ => exact readable_of_unitCase hcase

theorem mild_items : Mild ⟨name, .list form, .defaulted []⟩ := by
  refine mild_defaulted fun passage value h => ?_
  obtain ⟨items, rfl, hitems⟩ := array_of_list h
  cases hitems
  rfl

/-- A list of texts is mild whatever its default is. -/
theorem mild_texts {texts : List String} : Mild ⟨name, .list .text, .defaulted texts⟩ := by
  refine mild_defaulted fun passage value h => ?_
  obtain ⟨items, rfl, hitems⟩ := array_of_list h
  clear h
  rw [readable, readableItems_iff]
  induction hitems with
  | nil => exact List.forall_mem_nil _
  | cons hfirst _ ih => exact List.forall_mem_cons.2 ⟨readable_of_decodeString hfirst, ih⟩

/-- What stands for a missing field can be read, whatever the field. -/
theorem mild_of_mem (form : Form) (kind : Option String) :
    ∀ field ∈ form.fields kind, field.Mild := by
  cases form with
  | other | nothing | text | line | mode | opener | tag | list => exact List.forall_mem_nil _
  | step => exact List.forall_mem_cons.2 ⟨mild_required, List.forall_mem_singleton.2 mild_items⟩
  | lookup => exact List.forall_mem_cons.2 ⟨mild_required, List.forall_mem_singleton.2 mild_mode⟩
  | branch => exact List.forall_mem_cons.2 ⟨mild_required, List.forall_mem_singleton.2 mild_required⟩
  | children => exact List.forall_mem_singleton.2 mild_required
  | guarded => exact List.forall_mem_cons.2 ⟨mild_optional, List.forall_mem_singleton.2 mild_required⟩
  | given =>
      exact List.forall_mem_cons.2 ⟨mild_required,
        List.forall_mem_cons.2 ⟨mild_items, List.forall_mem_singleton.2 mild_optional⟩⟩
  | production =>
      exact List.forall_mem_cons.2 ⟨mild_required, List.forall_mem_cons.2 ⟨mild_items,
        List.forall_mem_cons.2 ⟨mild_optional, List.forall_mem_singleton.2 mild_optional⟩⟩⟩
  | config => exact List.forall_mem_singleton.2 mild_texts
  | target | expr | fragment | statement =>
      simp only [Form.fields, Form.targetFields, Form.exprFields, Form.fragmentFields,
        Form.operationFields]
      split
      all_goals
        repeat'
          first
          | exact List.forall_mem_nil _
          | exact mild_required
          | exact mild_optional
          | exact mild_nothing
          | refine List.forall_mem_cons.2 ⟨?_, ?_⟩

end Field

end ComponentTemplates
