/-
Module: ComponentTemplates.Proofs.Text.Markup
Purpose: Markup that a reader takes for text throughout. Escaped text is such markup, whatever it is the
  text of, and pieces of such markup put together are; nothing but the empty text is escaped to nothing.
Main exports: CleanChars, Clean, clean_append, clean_escape, isEmpty_escape
-/
import ComponentTemplates.Text.Markup

namespace ComponentTemplates.Text.Markup

/-- What an ampersand may begin. -/
def entities : List (List Char) :=
  [['&', 'a', 'm', 'p', ';'], ['&', 'l', 't', ';'], ['&', 'g', 't', ';'],
    ['&', 'q', 'u', 'o', 't', ';']]

/-- No angle bracket and no double quote, and an ampersand only as the beginning of an entity. -/
def CleanChars : List Char → Prop
  | [] => True
  | c :: rest =>
      (c ≠ '<' ∧ c ≠ '>' ∧ c ≠ '"' ∧ (c = '&' → ∃ written ∈ entities, written <+: c :: rest)) ∧
        CleanChars rest

/-- `CleanChars` of the characters of a text. -/
def Clean (text : String) : Prop :=
  CleanChars text.toList

instance decidableCleanChars : (cs : List Char) → Decidable (CleanChars cs)
  | [] => isTrue trivial
  | _ :: rest =>
      have : Decidable (CleanChars rest) := decidableCleanChars rest
      inferInstanceAs (Decidable (_ ∧ CleanChars rest))

instance (text : String) : Decidable (Clean text) :=
  inferInstanceAs (Decidable (CleanChars text.toList))

theorem cleanChars_append {xs ys : List Char} (hxs : CleanChars xs) (hys : CleanChars ys) :
    CleanChars (xs ++ ys) := by
  induction xs with
  | nil => exact hys
  | cons c rest ih =>
      obtain ⟨⟨hless, hgreater, hquote, hentity⟩, hrest⟩ := hxs
      refine ⟨⟨hless, hgreater, hquote, ?_⟩, ih hrest⟩
      intro hc
      obtain ⟨written, hmem, hprefix⟩ := hentity hc
      exact ⟨written, hmem, hprefix.trans (List.prefix_append (c :: rest) ys)⟩

theorem clean_append {s t : String} (hs : Clean s) (ht : Clean t) : Clean (s ++ t) := by
  unfold Clean
  rw [String.toList_append]
  exact cleanChars_append hs ht

/-- The one place where text becomes markup. -/
theorem cleanChars_entity (c : Char) : CleanChars (entity c) := by
  unfold entity
  split
  case h_5 hamp hless hgreater hquote =>
    exact ⟨⟨hless, hgreater, hquote, fun hc => absurd hc hamp⟩, trivial⟩
  all_goals decide

theorem cleanChars_escapeChars (cs : List Char) : CleanChars (escapeChars cs) := by
  induction cs with
  | nil => exact trivial
  | cons c rest ih =>
      rw [escapeChars_cons]
      exact cleanChars_append (cleanChars_entity c) ih

theorem clean_escape (text : String) : Clean (escape text) := by
  unfold Clean escape
  rw [String.toList_ofList]
  exact cleanChars_escapeChars text.toList

theorem entity_ne_nil (c : Char) : entity c ≠ [] := by
  unfold entity
  split <;> exact List.cons_ne_nil _ _

/-- Text is empty exactly if it is when escaped. -/
theorem isEmpty_escape (text : String) : (escape text).isEmpty = text.isEmpty := by
  have hnil : escapeChars text.toList = [] ↔ text.toList = [] := by
    cases text.toList with
    | nil => simp
    | cons c rest => simp [entity_ne_nil]
  rw [Bool.eq_iff_iff, String.isEmpty_iff, String.isEmpty_iff, escape, String.ofList_eq_empty_iff,
    hnil, String.toList_eq_nil_iff]

end ComponentTemplates.Text.Markup
