/-
Module: ComponentTemplates.Proofs.Value.Given
Purpose: When a value counts as given, compared with what it prints. What prints something counts; what
  prints nothing counts only for what it holds, a record or a list with items. So a property made of
  parts is not hidden by a condition if it prints something, and it passes a condition without printing
  anything exactly if one of its parts holds such structure (`Value.hasValue_field`).
Main exports: Value.HoldsStructure, Value.hasValue_iff, Value.hasValue_field,
  Value.hasValue_field_record
-/
import ComponentTemplates.Interpreter
import ComponentTemplates.Proofs.Text.Markup
import Mathlib.Data.List.Basic

namespace ComponentTemplates.Value

/-- A record or a list with items, by itself, as what a method returns, or as a part at any depth. -/
inductive HoldsStructure : Value → Prop where
  | record (fields : List (String × Value)) : HoldsStructure (.record fields)
  | list (item : Value) (rest : List Value) : HoldsStructure (.list (item :: rest))
  | method (identity : Nat) {call : List String → Value} (h : HoldsStructure (call [])) :
      HoldsStructure (.method identity call)
  | field (name : String) {parts : List Value} {part : Value} (hpart : part ∈ parts)
      (h : HoldsStructure part) : HoldsStructure (.field name parts)

/-- A property holds structure if one of its parts does. -/
theorem holdsStructure_field_iff {name : String} {parts : List Value} :
    HoldsStructure (.field name parts) ↔ ∃ part ∈ parts, HoldsStructure part := by
  constructor
  · intro h
    cases h with
    | field _ hpart h => exact ⟨_, hpart, h⟩
  · rintro ⟨part, hpart, h⟩
    exact .field name hpart h

theorem holdsStructure_method_iff {identity : Nat} {call : List String → Value} :
    HoldsStructure (.method identity call) ↔ HoldsStructure (call []) := by
  constructor
  · intro h
    cases h with
    | method _ h => exact h
  · exact .method identity

theorem holdsStructure_list_iff {items : List Value} : HoldsStructure (.list items) ↔ items ≠ [] := by
  cases items with
  | nil => exact ⟨nofun, fun h => absurd rfl h⟩
  | cons item rest => exact ⟨fun _ => List.cons_ne_nil _ _, fun _ => .list item rest⟩

mutual

/-- A value counts as given if it prints something, or for the structure that it holds. -/
theorem hasValue_iff (value : Value) :
    value.hasValue = true ↔ value.toHtml ≠ "" ∨ value.HoldsStructure := by
  cases value with
  | null => exact ⟨nofun, fun h => h.elim (absurd rfl) nofun⟩
  | bool flag =>
      cases flag with
      | false => exact ⟨nofun, fun h => h.elim (absurd rfl) nofun⟩
      | true => exact ⟨fun _ => .inl (by decide), fun _ => rfl⟩
  | text content =>
      rw [hasValue, ← Text.Markup.isEmpty_escape, Bool.not_eq_true', ← Bool.not_eq_true,
        String.isEmpty_iff]
      exact ⟨.inl, fun h => h.elim id nofun⟩
  | html content =>
      rw [hasValue, Bool.not_eq_true', ← Bool.not_eq_true, String.isEmpty_iff]
      exact ⟨.inl, fun h => h.elim id nofun⟩
  | field name parts =>
      rw [holdsStructure_field_iff]
      exact anyHasValue_iff parts
  | record fields => exact ⟨fun _ => .inr (.record fields), fun _ => rfl⟩
  | list items =>
      rw [holdsStructure_list_iff, hasValue, Bool.not_eq_true', ← Bool.not_eq_true,
        List.isEmpty_iff]
      exact ⟨.inr, fun h => h.elim (absurd rfl) id⟩
  | method identity call =>
      rw [holdsStructure_method_iff]
      exact hasValue_iff (call [])

/-- One of several values counts as given if together they print something, or if one holds structure. -/
theorem anyHasValue_iff (values : List Value) :
    anyHasValue values = true ↔ partsHtml values ≠ "" ∨ ∃ value ∈ values, value.HoldsStructure := by
  cases values with
  | nil => simp [anyHasValue, partsHtml]
  | cons value rest =>
      rw [anyHasValue, Bool.or_eq_true, hasValue_iff value, anyHasValue_iff rest, partsHtml,
        List.exists_mem_cons_iff]
      have happend : value.toHtml ++ partsHtml rest ≠ "" ↔
          value.toHtml ≠ "" ∨ partsHtml rest ≠ "" := by
        rw [ne_eq, String.append_eq_empty_iff, not_and_or]
      rw [happend, or_or_or_comm]

end

/-- **Conditions on a property**: a property made of parts counts as given if it prints something, and if
it prints nothing, exactly if one of its parts holds structure. So a condition never hides a property
that prints something; it lets one pass that prints nothing exactly for the structure in it, and only
then does the rule fail that a property counts exactly if it prints something. -/
theorem hasValue_field (name : String) (parts : List Value) :
    let property := Value.field name parts
    let structured := ∃ part ∈ parts, part.HoldsStructure
    (property.hasValue = true ↔ property.toHtml ≠ "" ∨ structured) ∧
      ((property.hasValue = true ↔ property.toHtml ≠ "") ↔ (structured → property.toHtml ≠ "")) ∧
      ∀ (host : Host) (machine : Machine) (condition : Lookup) (body : List Statement),
        machine.eval condition = property →
          (property.toHtml ≠ "" ∨ structured →
            execute host (.choose [⟨condition, body⟩] none) machine =
              executeAll host body machine) ∧
          (property.toHtml = "" → ¬structured →
            execute host (.choose [⟨condition, body⟩] none) machine = machine.done) := by
  intro property structured
  have hvalue : property.hasValue = true ↔ property.toHtml ≠ "" ∨ structured :=
    anyHasValue_iff parts
  refine ⟨hvalue, ?_, ?_⟩
  · rw [hvalue]
    exact ⟨fun h hstructured => h.1 (.inr hstructured),
      fun h => ⟨fun hgiven => hgiven.elim id h, .inl⟩⟩
  · intro host machine condition body heval
    constructor
    · intro hgiven
      refine if_pos ?_
      rw [heval]
      exact hvalue.2 hgiven
    · intro hempty hplain
      refine if_neg ?_
      rw [heval, hvalue]
      exact fun hgiven => hgiven.elim (absurd hempty) hplain

/-- A record that has no markup, with nothing behind it: the property counts as given and prints nothing. -/
theorem hasValue_field_record :
    let property := Value.field "title" [.record [], .null]
    property.hasValue = true ∧ property.toHtml = "" :=
  ⟨rfl, rfl⟩

end ComponentTemplates.Value
