/-
Module: ComponentTemplates.Proofs.Value.Rewriting
Purpose: Values in another guise. Plain text may be escaped beforehand, and any value may be wrapped as a
  property with one part, at any number of places and to any depth. No question that an execution
  asks tells the guises apart, so that they are a correspondence (`Correspondence.guise`).
Main exports: Value.Rewritten, Value.Rewritten.mono, Value.Escapes, Value.Wraps, Value.Guise,
  Correspondence.guise
-/
import ComponentTemplates.Proofs.Correspondence.Basic
import ComponentTemplates.Proofs.Text.Markup

namespace ComponentTemplates

namespace Value

/-- The second value comes from the first by steps, each at a value that stands anywhere in it, any number
of times. Values with methods are left out. -/
inductive Rewritten (step : Value → Value → Prop) : Value → Value → Prop where
  | null : Rewritten step .null .null
  | bool (flag : Bool) : Rewritten step (.bool flag) (.bool flag)
  | text (content : String) : Rewritten step (.text content) (.text content)
  | html (content : String) : Rewritten step (.html content) (.html content)
  | field (name : String) {parts parts' : List Value} (hlength : parts.length = parts'.length)
      (hparts : ∀ left right, (left, right) ∈ parts.zip parts' → Rewritten step left right) :
      Rewritten step (.field name parts) (.field name parts')
  | record {fields fields' : List (String × Value)}
      (hnames : Bindings.names fields = Bindings.names fields')
      (hfields : ∀ left right, (left, right) ∈ fields.zip fields' →
        Rewritten step left.2 right.2) :
      Rewritten step (.record fields) (.record fields')
  | list {items items' : List Value} (hlength : items.length = items'.length)
      (hitems : ∀ left right, (left, right) ∈ items.zip items' → Rewritten step left right) :
      Rewritten step (.list items) (.list items')
  | step {left middle right : Value} (h : Rewritten step left middle) (hstep : step middle right) :
      Rewritten step left right

/-- Plain text, and the markup it stands for. -/
inductive Escapes : Value → Value → Prop where
  | text (content : String) : Escapes (.text content) (.html (Text.Markup.escape content))

/-- A value, and the property that has it as its only part. -/
inductive Wraps : Value → Value → Prop where
  | wrap (name : String) (part : Value) : Wraps part (.field name [part])

/-- A change that no template sees. -/
inductive Guise : Value → Value → Prop where
  | escape (content : String) : Guise (.text content) (.html (Text.Markup.escape content))
  | wrap (name : String) (part : Value) : Guise part (.field name [part])

/-- Escaping beforehand is a change of guise. -/
theorem Escapes.guise {left right : Value} (h : Escapes left right) : Guise left right := by
  cases h with
  | text content => exact .escape content

/-- Wrapping is a change of guise. -/
theorem Wraps.guise {left right : Value} (h : Wraps left right) : Guise left right := by
  cases h with
  | wrap name _ => exact .wrap name left

namespace Rewritten

variable {step : Value → Value → Prop} {left right : Value}

/-- A rewriting by some steps is one by all steps that include them. -/
theorem mono {step' : Value → Value → Prop} (hsteps : ∀ left right, step left right → step' left right)
    (h : Rewritten step left right) : Rewritten step' left right := by
  induction h with
  | null => exact .null
  | bool flag => exact .bool flag
  | text content => exact .text content
  | html content => exact .html content
  | field name hlength _ ih => exact .field name hlength ih
  | record hnames _ ih => exact .record hnames ih
  | list hlength _ ih => exact .list hlength ih
  | step _ hstep ih => exact .step ih (hsteps _ _ hstep)

theorem ofParts (name : String) {parts parts' : List Value}
    (h : List.Forall₂ (Rewritten step) parts parts') :
    Rewritten step (.field name parts) (.field name parts') :=
  .field name h.length_eq fun _ _ hmem => (List.forall₂_iff_zip.1 h).2 hmem

theorem ofFields {fields fields' : List (String × Value)}
    (h : Bindings.Related (Rewritten step) fields fields') :
    Rewritten step (.record fields) (.record fields') :=
  .record h.names_eq fun _ _ hmem => ((List.forall₂_iff_zip.1 h).2 hmem).2

theorem ofItems {items items' : List Value} (h : List.Forall₂ (Rewritten step) items items') :
    Rewritten step (.list items) (.list items') :=
  .list h.length_eq fun _ _ hmem => (List.forall₂_iff_zip.1 h).2 hmem

end Rewritten

/-! ## Answers of two guises of one value -/

theorem anyHasValue_eq_of_forall₂ {values values' : List Value}
    (h : List.Forall₂ (fun left right => left.hasValue = right.hasValue) values values') :
    anyHasValue values = anyHasValue values' := by
  induction h with
  | nil => rfl
  | cons hvalue _ ih => rw [anyHasValue, anyHasValue, hvalue, ih]

theorem partsHtml_eq_of_forall₂ {values values' : List Value}
    (h : List.Forall₂ (fun left right => left.toHtml = right.toHtml) values values') :
    partsHtml values = partsHtml values' := by
  induction h with
  | nil => rfl
  | cons hvalue _ ih => rw [partsHtml, partsHtml, hvalue, ih]

/-- The markup of fields depends on the markup of each. -/
theorem templateHtml_eq_of_related {fields fields' : List (String × Value)}
    (h : Bindings.Related (fun left right => left.toHtml = right.toHtml) fields fields') :
    templateHtml fields = templateHtml fields' := by
  induction h with
  | nil => rfl
  | @cons field field' _ _ hfield _ ih =>
      obtain ⟨name, value⟩ := field
      obtain ⟨name', value'⟩ := field'
      obtain ⟨hname, hvalue⟩ := hfield
      dsimp only at hname hvalue
      rw [templateHtml, templateHtml, hname, hvalue, ih]

theorem hasValue_list_eq {items items' : List Value} (hlength : items.length = items'.length) :
    (Value.list items).hasValue = (Value.list items').hasValue := by
  have hempty : items.isEmpty = items'.isEmpty := by
    rw [Bool.eq_iff_iff, List.isEmpty_iff_length_eq_zero, List.isEmpty_iff_length_eq_zero, hlength]
  rw [hasValue, hasValue, hempty]

section OnlyPart

variable {name : String} {parts parts' : List Value}

/-- Where the parts have related answers one by one, so has the only part, and where there is none or there
are several, the answer is the same. -/
theorem rel_singlePart? {β : Type} {rel : β → β → Prop} {answer : Value → β} {default : β}
    (hdefault : rel default default)
    (h : List.Forall₂ (fun left right => rel (answer left) (answer right)) parts parts') :
    rel (((singlePart? parts).map answer).getD default)
      (((singlePart? parts').map answer).getD default) := by
  cases h with
  | nil => exact hdefault
  | cons hpart hrest =>
      cases hrest with
      | nil => exact hpart
      | cons _ _ => exact hdefault

/-- Which names a property provides depends on its parts one by one. -/
theorem provides_field_eq {wanted : String}
    (h : List.Forall₂ (fun left right => left.provides wanted = right.provides wanted)
      parts parts') :
    (Value.field name parts).provides wanted = (Value.field name parts').provides wanted := by
  rw [provides_field, provides_field]
  exact rel_singlePart? rfl h

/-- The items of a property are related if those of its parts are. -/
theorem items_field_forall₂ {rel : Value → Value → Prop}
    (h : List.Forall₂ (fun left right => List.Forall₂ rel left.items right.items) parts parts') :
    List.Forall₂ rel (Value.field name parts).items (Value.field name parts').items := by
  rw [items_field, items_field]
  exact rel_singlePart? .nil h

/-- What a lookup finds in a property is related if it is in each part. -/
theorem lookup_field_forall₂ {rel : Value → Value → Prop} (hnull : rel .null .null)
    {step : Lookup.Step}
    (h : List.Forall₂ (fun left right => rel (left.lookup step) (right.lookup step))
      parts parts') :
    rel ((Value.field name parts).lookup step) ((Value.field name parts').lookup step) := by
  rw [lookup_field, lookup_field]
  exact rel_singlePart? hnull h

end OnlyPart

/-- A record that has no method under the name answers with its field. -/
theorem lookupField_eq_getD {fields : List (String × Value)} {step : Lookup.Step}
    (h : ∀ identity call, Bindings.get? fields step.name ≠ some (.method identity call)) :
    lookupField fields step = (Bindings.get? fields step.name).getD .null := by
  unfold lookupField
  split
  · rename_i identity call hmethod
    exact absurd hmethod (h identity call)
  · rename_i value _ hvalue
    rw [hvalue]
    rfl
  · rename_i hnone
    rw [hnone]
    rfl

theorem forall₂_ite {rel : Value → Value → Prop} (condition : Bool) {left right : Value}
    (h : rel left right) :
    List.Forall₂ rel (if condition then [left] else []) (if condition then [right] else []) := by
  cases condition with
  | true => exact .cons h .nil
  | false => exact .nil

/-- What a list answers is one of its items, text, or nothing. -/
theorem lookupItem_forall₂ {rel : Value → Value → Prop} (hnull : rel .null .null)
    (htext : ∀ content, rel (.text content) (.text content)) {items items' : List Value}
    (h : List.Forall₂ rel items items') (step : Lookup.Step) :
    rel (lookupItem items step) (lookupItem items' step) := by
  have hhead : ∀ {first first' : List Value}, List.Forall₂ rel first first' →
      rel (first.head?.getD .null) (first'.head?.getD .null) := by
    intro first first' hfirst
    cases hfirst with
    | nil => exact hnull
    | cons hvalue _ => exact hvalue
  unfold lookupItem
  rw [h.length_eq]
  split
  · exact htext _
  · split
    · exact hhead h
    · split
      · rw [← List.head?_reverse, ← List.head?_reverse]
        exact hhead (List.rel_reverse h)
      · exact hnull

namespace Rewritten

variable {left right : Value}

/-- No guise is a method. -/
theorem not_method (h : Rewritten Guise left right) (identity : Nat)
    (call : List String → Value) : left ≠ .method identity call ∧ right ≠ .method identity call := by
  induction h with
  | step _ hstep ih =>
      refine ⟨ih.1, ?_⟩
      cases hstep with
      | escape content => exact nofun
      | wrap name part => exact nofun
  | _ => exact ⟨nofun, nofun⟩

theorem hasValue_eq (h : Rewritten Guise left right) : left.hasValue = right.hasValue := by
  induction h with
  | null => rfl
  | bool flag => rfl
  | text content => rfl
  | html content => rfl
  | field name hlength _ ih =>
      exact anyHasValue_eq_of_forall₂ (List.forall₂_iff_zip.2 ⟨hlength, ih _ _⟩)
  | record hnames _ ih => rfl
  | list hlength _ _ => exact hasValue_list_eq hlength
  | step _ hstep ih =>
      rw [ih]
      cases hstep with
      | escape content => rw [hasValue, hasValue, Text.Markup.isEmpty_escape]
      | wrap name part => simp [hasValue, anyHasValue]

theorem toHtml_eq (h : Rewritten Guise left right) : left.toHtml = right.toHtml := by
  induction h with
  | null => rfl
  | bool flag => rfl
  | text content => rfl
  | html content => rfl
  | field name hlength _ ih =>
      exact partsHtml_eq_of_forall₂ (List.forall₂_iff_zip.2 ⟨hlength, ih _ _⟩)
  | record hnames _ ih =>
      exact templateHtml_eq_of_related (Bindings.related_iff_zip.2 ⟨hnames, ih⟩)
  | list hlength _ ih => rfl
  | step _ hstep ih =>
      rw [ih]
      cases hstep with
      | escape content => rfl
      | wrap name part => simp [toHtml, partsHtml]

theorem provides_eq (h : Rewritten Guise left right) (name : String) :
    left.provides name = right.provides name := by
  induction h with
  | null => rfl
  | bool flag => rfl
  | text content => rfl
  | html content => rfl
  | field name hlength _ ih =>
      exact provides_field_eq (List.forall₂_iff_zip.2 ⟨hlength, ih _ _⟩)
  | record hnames hfields _ =>
      exact (Bindings.related_iff_zip.2 ⟨hnames, hfields⟩).contains_eq name
  | list hlength _ ih => rfl
  | step _ hstep ih =>
      rw [ih]
      cases hstep with
      | escape content => rfl
      | wrap name part => rfl

/-- Escaped text has the items of the text, in their guise. -/
theorem items_escape {content : String} {items : List Value}
    (h : List.Forall₂ (Rewritten Guise) items (Value.text content).items) :
    List.Forall₂ (Rewritten Guise) items (Value.html (Text.Markup.escape content)).items := by
  have htext : (Value.text content).items =
      if !content.isEmpty then [.text content] else [] := rfl
  have hhtml : (Value.html (Text.Markup.escape content)).items =
      if !content.isEmpty then [.html (Text.Markup.escape content)] else [] := by
    rw [← Text.Markup.isEmpty_escape]
    rfl
  rw [htext] at h
  rw [hhtml]
  by_cases hvalue : (!content.isEmpty) = true
  · rw [if_pos hvalue] at h ⊢
    obtain ⟨item, rest, hitem, hrest, heq⟩ := List.forall₂_cons_right_iff.1 h
    rw [heq]
    exact .cons (.step hitem (.escape content)) hrest
  · rw [if_neg hvalue] at h ⊢
    exact h

theorem items_rewritten (h : Rewritten Guise left right) :
    List.Forall₂ (Rewritten Guise) left.items right.items := by
  induction h with
  | null => exact .nil
  | bool flag => exact forall₂_ite _ (.bool flag)
  | text content => exact forall₂_ite _ (.text content)
  | html content => exact forall₂_ite _ (.html content)
  | field name hlength _ ih =>
      exact items_field_forall₂ (List.forall₂_iff_zip.2 ⟨hlength, ih _ _⟩)
  | record hnames hfields _ => exact .cons (.record hnames hfields) .nil
  | list hlength hitems _ => exact List.forall₂_iff_zip.2 ⟨hlength, hitems _ _⟩
  | step h hstep ih =>
      cases hstep with
      | wrap name part => exact ih
      | escape content => exact items_escape ih

theorem lookupField_rewritten {fields fields' : List (String × Value)}
    (h : Bindings.Related (Rewritten Guise) fields fields') (step : Lookup.Step) :
    Rewritten Guise (lookupField fields step) (lookupField fields' step) := by
  have hfound := h.get? step.name
  rw [lookupField_eq_getD, lookupField_eq_getD]
  all_goals
    generalize Bindings.get? fields step.name = found at hfound ⊢
    generalize Bindings.get? fields' step.name = found' at hfound ⊢
  · cases hfound with
    | none => exact .null
    | some hvalue => exact hvalue
  · rintro identity call rfl
    cases hfound with
    | some hvalue => exact (hvalue.not_method identity call).2 rfl
  · rintro identity call rfl
    cases hfound with
    | some hvalue => exact (hvalue.not_method identity call).1 rfl

/-- A lookup in a value in another guise finds the same, in another guise. -/
theorem lookup_rewritten (h : Rewritten Guise left right) (step : Lookup.Step) :
    Rewritten Guise (left.lookup step) (right.lookup step) := by
  induction h with
  | null => exact .null
  | bool flag => exact .null
  | text content => exact .null
  | html content => exact .null
  | field name hlength _ ih =>
      exact lookup_field_forall₂ .null (List.forall₂_iff_zip.2 ⟨hlength, ih _ _⟩)
  | record hnames hfields _ =>
      exact lookupField_rewritten (Bindings.related_iff_zip.2 ⟨hnames, hfields⟩) step
  | list hlength hitems _ =>
      exact lookupItem_forall₂ .null .text (List.forall₂_iff_zip.2 ⟨hlength, hitems _ _⟩) step
  | step h hstep ih =>
      cases hstep with
      | wrap name part => exact ih
      | escape content => exact ih

/-- What is rich text stays so in another guise. -/
theorem isRichText_of_isRichText (h : Rewritten Guise left right) (hrich : left.isRichText = true) :
    right.isRichText = true := by
  induction h with
  | html content => rfl
  | field name _ _ _ => rfl
  | step _ hstep ih =>
      cases hstep with
      | escape content => rfl
      | wrap name part => rfl
  | _ => exact hrich

/-- A property made of one part is the part or wraps it, which is the same to a template. -/
theorem createProperty_rewritten (name : String) {parts parts' : List Value}
    (h : List.Forall₂ (Rewritten Guise) parts parts') :
    Rewritten Guise (createProperty name parts) (createProperty name parts') := by
  cases h with
  | nil => exact ofParts name .nil
  | @cons part part' rest rest' hpart hrest =>
      cases hrest with
      | cons hnext hrest => exact ofParts name (.cons hpart (.cons hnext hrest))
      | nil =>
          change Rewritten Guise (if part.isRichText then .field name [part] else part)
            (if part'.isRichText then .field name [part'] else part')
          by_cases hrich : part.isRichText = true
          · rw [if_pos hrich, if_pos (hpart.isRichText_of_isRichText hrich)]
            exact ofParts name (.cons hpart .nil)
          · rw [if_neg hrich]
            by_cases hrich' : part'.isRichText = true
            · rw [if_pos hrich']
              exact .step hpart (.wrap name part')
            · rw [if_neg hrich']
              exact hpart

end Rewritten

end Value

/-- Guises of one value correspond, and write the same markup. -/
def Correspondence.guise : Correspondence where
  value := Value.Rewritten Value.Guise
  markup := Eq
  markup_empty := rfl
  markup_append hleft hright := by rw [hleft, hright]
  null := .null
  bool := .bool
  text := .text
  html h := h ▸ .html _
  record := .ofFields
  createProperty := Value.Rewritten.createProperty_rewritten
  hasValue := Value.Rewritten.hasValue_eq
  toHtml := Value.Rewritten.toHtml_eq
  lookup step h := h.lookup_rewritten step
  items := Value.Rewritten.items_rewritten
  provides name h := h.provides_eq name

end ComponentTemplates
