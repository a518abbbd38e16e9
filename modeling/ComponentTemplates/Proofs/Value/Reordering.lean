/-
Module: ComponentTemplates.Proofs.Value.Reordering
Purpose: Values whose records list their fields in another order. A record is asked for its fields by
  name, so that two records with the same answers under every name cannot be told apart; this holds
  wherever they stand in a value, which makes it a correspondence (`Correspondence.reordered`).
Main exports: Value.Reordered, Correspondence.reordered
-/
import ComponentTemplates.Proofs.Value.Rewriting

namespace ComponentTemplates

namespace Value

/-- The same value but for records, at any depth, which have related fields under the same names. -/
inductive Reordered : Value → Value → Prop where
  | same (value : Value) : Reordered value value
  | field (name : String) {parts parts' : List Value} (hlength : parts.length = parts'.length)
      (hparts : ∀ left right, (left, right) ∈ parts.zip parts' → Reordered left right) :
      Reordered (.field name parts) (.field name parts')
  | record {fields fields' : List (String × Value)}
      (hnames : ∀ name, Bindings.contains fields name = Bindings.contains fields' name)
      (hfields : ∀ name left right, Bindings.get? fields name = some left →
        Bindings.get? fields' name = some right → Reordered left right) :
      Reordered (.record fields) (.record fields')
  | list {items items' : List Value} (hlength : items.length = items'.length)
      (hitems : ∀ left right, (left, right) ∈ items.zip items' → Reordered left right) :
      Reordered (.list items) (.list items')

namespace Reordered

variable {left right : Value}

theorem ofParts (name : String) {parts parts' : List Value}
    (h : List.Forall₂ Reordered parts parts') : Reordered (.field name parts) (.field name parts') :=
  .field name h.length_eq fun _ _ hmem => (List.forall₂_iff_zip.1 h).2 hmem

/-- Records with the same answers under every name. -/
theorem ofGet? {fields fields' : List (String × Value)}
    (h : ∀ name, Bindings.get? fields name = Bindings.get? fields' name) :
    Reordered (.record fields) (.record fields') := by
  refine .record (fun name => congrArg Option.isSome (h name)) ?_
  intro name left right hleft hright
  rw [h name, hright] at hleft
  cases hleft
  exact .same _

theorem ofFields {fields fields' : List (String × Value)}
    (h : Bindings.Related Reordered fields fields') :
    Reordered (.record fields) (.record fields') := by
  refine .record h.contains_eq ?_
  intro name left right hleft hright
  have hvalue := h.get? name
  rw [hleft, hright] at hvalue
  cases hvalue with
  | some hvalue => exact hvalue

/-- What records with related fields answer to a name. -/
theorem rel_get? {rel : Value → Value → Prop} {fields fields' : List (String × Value)}
    (hnames : ∀ name, Bindings.contains fields name = Bindings.contains fields' name)
    (hfields : ∀ name left right, Bindings.get? fields name = some left →
      Bindings.get? fields' name = some right → rel left right) (name : String) :
    Option.Rel rel (Bindings.get? fields name) (Bindings.get? fields' name) := by
  have hname := hnames name
  have hfield := hfields name
  unfold Bindings.contains at hname
  generalize Bindings.get? fields name = found at hname hfield ⊢
  generalize Bindings.get? fields' name = found' at hname hfield ⊢
  cases found <;> cases found'
  · exact .none
  · cases hname
  · cases hname
  · exact .some (hfield _ _ rfl rfl)

theorem kind_eq (h : Reordered left right) : left.kind = right.kind := by
  cases h <;> rfl

theorem hasValue_eq (h : Reordered left right) : left.hasValue = right.hasValue := by
  induction h with
  | same value => rfl
  | field name hlength _ ih =>
      exact anyHasValue_eq_of_forall₂ (List.forall₂_iff_zip.2 ⟨hlength, ih _ _⟩)
  | record _ _ _ => rfl
  | list hlength _ _ => exact hasValue_list_eq hlength

/-- A record has the markup of the field that is meant for templates. -/
theorem templateHtml_eq_getD (fields : List (String × Value)) :
    templateHtml fields = ((Bindings.get? fields "forTemplate").map toHtml).getD "" := by
  induction fields with
  | nil => rfl
  | cons field rest ih =>
      obtain ⟨name, value⟩ := field
      rw [templateHtml, Bindings.get?_cons, ih]
      split <;> rfl

theorem toHtml_eq (h : Reordered left right) : left.toHtml = right.toHtml := by
  induction h with
  | same value => rfl
  | field name hlength _ ih =>
      exact partsHtml_eq_of_forall₂ (List.forall₂_iff_zip.2 ⟨hlength, ih _ _⟩)
  | @record fields fields' hnames _ ih =>
      have hfound := rel_get? hnames ih "forTemplate"
      rw [toHtml, toHtml, templateHtml_eq_getD, templateHtml_eq_getD]
      generalize Bindings.get? fields "forTemplate" = found at hfound ⊢
      generalize Bindings.get? fields' "forTemplate" = found' at hfound ⊢
      cases hfound with
      | none => rfl
      | some hvalue => exact hvalue
  | list _ _ _ => rfl

theorem provides_eq (h : Reordered left right) (name : String) :
    left.provides name = right.provides name := by
  induction h with
  | same value => rfl
  | field name hlength _ ih =>
      exact provides_field_eq (List.forall₂_iff_zip.2 ⟨hlength, ih _ _⟩)
  | record hnames _ _ => exact hnames name
  | list _ _ _ => rfl

/-- A lookup in reordered fields finds the same, reordered. -/
theorem lookupField_reordered {fields fields' : List (String × Value)}
    (hnames : ∀ name, Bindings.contains fields name = Bindings.contains fields' name)
    (hfields : ∀ name left right, Bindings.get? fields name = some left →
      Bindings.get? fields' name = some right → Reordered left right) (step : Lookup.Step) :
    Reordered (lookupField fields step) (lookupField fields' step) := by
  have hfound := rel_get? hnames hfields step.name
  unfold lookupField
  generalize Bindings.get? fields step.name = found at hfound ⊢
  generalize Bindings.get? fields' step.name = found' at hfound ⊢
  cases hfound with
  | none => exact .same .null
  | some hvalue =>
      -- A method stands under the name on both sides or on neither, and then it is the same one.
      cases hvalue with
      | same value => exact .same _
      | field _ hlength hparts => exact .field _ hlength hparts
      | record hnames hfields => exact .record hnames hfields
      | list hlength hitems => exact .list hlength hitems

/-- A lookup in a reordered value finds the same, reordered. -/
theorem lookup_reordered (h : Reordered left right) (step : Lookup.Step) :
    Reordered (left.lookup step) (right.lookup step) := by
  induction h with
  | same value => exact .same _
  | field name hlength _ ih =>
      exact lookup_field_forall₂ (.same .null) (List.forall₂_iff_zip.2 ⟨hlength, ih _ _⟩)
  | record hnames hfields _ => exact lookupField_reordered hnames hfields step
  | list hlength hitems _ =>
      exact lookupItem_forall₂ (.same .null) (fun content => .same (.text content))
        (List.forall₂_iff_zip.2 ⟨hlength, hitems _ _⟩) step

theorem items_reordered (h : Reordered left right) :
    List.Forall₂ Reordered left.items right.items := by
  induction h with
  | same value => exact List.forall₂_same.2 fun item _ => .same item
  | field name hlength _ ih =>
      exact items_field_forall₂ (List.forall₂_iff_zip.2 ⟨hlength, ih _ _⟩)
  | record hnames hfields _ => exact .cons (.record hnames hfields) .nil
  | list hlength hitems _ => exact List.forall₂_iff_zip.2 ⟨hlength, hitems _ _⟩

/-- A property is made of its parts in the same way, whatever the order of the fields in them. -/
theorem createProperty_reordered (name : String) {parts parts' : List Value}
    (h : List.Forall₂ Reordered parts parts') :
    Reordered (createProperty name parts) (createProperty name parts') := by
  cases h with
  | nil => exact ofParts name .nil
  | @cons part part' rest rest' hpart hrest =>
      cases hrest with
      | cons hnext hrest => exact ofParts name (.cons hpart (.cons hnext hrest))
      | nil =>
          change Reordered (if part.isRichText then .field name [part] else part)
            (if part'.isRichText then .field name [part'] else part')
          rw [isRichText, isRichText, hpart.kind_eq]
          split
          · exact ofParts name (.cons hpart .nil)
          · exact hpart

end Reordered

end Value

theorem append_eq_append {left left' right right' : String} (hleft : left = left')
    (hright : right = right') : left ++ right = left' ++ right' := by
  rw [hleft, hright]

/-- Values that differ in the order of fields correspond, and write the same markup. -/
def Correspondence.reordered : Correspondence where
  value := Value.Reordered
  markup := Eq
  markup_empty := rfl
  markup_append := append_eq_append
  null := .same .null
  bool flag := .same (.bool flag)
  text content := .same (.text content)
  html h := h ▸ .same _
  record := .ofFields
  createProperty := Value.Reordered.createProperty_reordered
  hasValue := Value.Reordered.hasValue_eq
  toHtml := Value.Reordered.toHtml_eq
  lookup step h := h.lookup_reordered step
  items := Value.Reordered.items_reordered
  provides name h := h.provides_eq name

end ComponentTemplates
