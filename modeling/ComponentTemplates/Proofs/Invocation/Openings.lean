/-
Module: ComponentTemplates.Proofs.Invocation.Openings
Purpose: What an attribute is refused for: the opening of a block, which may stand in a text at any place
  and in a value at any depth. The search through texts and parts finds an opening exactly if there is
  one (`containsOpener_iff`, `Fragment.hasOpener_iff`).
Main exports: Opener.Begins, Opener.StandsIn, Fragment.Opens, Attribute.Opens, containsOpener_iff,
  Fragment.hasOpener_iff, Attribute.anyOpener_iff
-/
import ComponentTemplates.Invocation.Property
import ComponentTemplates.Proofs.Text.Reading
import Mathlib.Data.List.Basic
import Mathlib.Data.List.TakeWhile

namespace ComponentTemplates

namespace Opener

/-- The text begins with the opening of a block: the bracket of a tag, blanks, and the word for the block,
which ends there. -/
def Begins (kind : Opener) (text : List Char) : Prop :=
  ∃ blanks after, text = '<' :: '%' :: (blanks ++ (kind.keyword ++ after)) ∧
    (∀ c ∈ blanks, Text.isBlank c = true) ∧ ∀ c ∈ after.head?, Text.isWordChar c = false

/-- An opening stands somewhere in the text. -/
def StandsIn (kind : Opener) (text : List Char) : Prop :=
  ∃ rest, rest <:+ text ∧ kind.Begins rest

theorem isBlank_keyword (kind : Opener) (after : List Char) :
    ∀ c ∈ (kind.keyword ++ after).head?, Text.isBlank c = false := by
  cases kind with
  | choice =>
      rintro c ⟨⟩
      decide
  | loop =>
      rintro c ⟨⟩
      decide

end Opener

/-- A word ends where no word character follows. -/
theorem endsWord_iff (after : List Char) :
    Text.endsWord after = true ↔ ∀ c ∈ after.head?, Text.isWordChar c = false := by
  cases after with
  | nil => exact ⟨fun _ => nofun, fun _ => rfl⟩
  | cons c rest => simp [Text.endsWord]

/-- The test for an opening at the start of a text is right. -/
theorem startsOpener_iff (kind : Opener) (text : List Char) :
    startsOpener kind.keyword text = true ↔ kind.Begins text := by
  constructor
  · intro h
    unfold startsOpener at h
    split at h
    · rename_i rest
      obtain ⟨hkeyword, hends⟩ := Bool.and_eq_true_iff.1 h
      obtain ⟨after, hafter⟩ := List.isPrefixOf_iff_prefix.1 hkeyword
      rw [← hafter, List.drop_left, endsWord_iff] at hends
      refine ⟨rest.takeWhile Text.isBlank, after, ?_, fun c => List.mem_takeWhile_imp, hends⟩
      rw [hafter, List.takeWhile_append_dropWhile]
    · cases h
  · rintro ⟨blanks, after, rfl, hblanks, hends⟩
    have hinner : (blanks ++ (kind.keyword ++ after)).dropWhile Text.isBlank =
        kind.keyword ++ after :=
      Text.dropWhile_stretch hblanks (kind.isBlank_keyword after)
    have hkeyword : kind.keyword.isPrefixOf (kind.keyword ++ after) = true :=
      List.isPrefixOf_iff_prefix.2 (List.prefix_append _ _)
    simp only [startsOpener, hinner, hkeyword, List.drop_left, Bool.true_and]
    exact (endsWord_iff after).2 hends

/-- The test for an opening in a text is right. -/
theorem containsOpener_iff (kind : Opener) (text : List Char) :
    containsOpener kind.keyword text = true ↔ kind.StandsIn text := by
  induction text with
  | nil =>
      refine ⟨nofun, ?_⟩
      rintro ⟨rest, hrest, blanks, after, rfl, _⟩
      cases List.suffix_nil.1 hrest
  | cons c text ih =>
      rw [containsOpener, Bool.or_eq_true, startsOpener_iff, ih]
      constructor
      · rintro (h | ⟨rest, hrest, h⟩)
        · exact ⟨_, List.suffix_rfl, h⟩
        · exact ⟨rest, hrest.trans (List.suffix_cons c text), h⟩
      · rintro ⟨rest, hrest, h⟩
        rcases List.suffix_cons_iff.1 hrest with rfl | hrest
        · exact .inl h
        · exact .inr ⟨rest, hrest, h⟩

namespace Fragment

/-- An opening stands in the part: as itself, inside a text, or in a part of a branch, guarded or not. -/
inductive Opens (kind : Opener) : Fragment → Prop where
  | opener : Opens kind (.opener kind)
  | literal {text : String} (h : kind.StandsIn text.toList) : Opens kind (.literal text)
  | branch (guard : Option Lookup) {body : List Fragment} {fragment : Fragment}
      (hmem : fragment ∈ body) (h : Opens kind fragment) : Opens kind (.branch guard body)

mutual

theorem hasOpener_iff (kind : Opener) (fragment : Fragment) :
    fragment.hasOpener kind = true ↔ fragment.Opens kind := by
  cases fragment with
  | literal text =>
      rw [hasOpener, containsOpener_iff]
      exact ⟨.literal, fun | .literal h => h⟩
  | value lookup => exact ⟨nofun, nofun⟩
  | branch guard body =>
      rw [hasOpener, anyOpener_iff kind body]
      exact ⟨fun ⟨_, hmem, h⟩ => .branch guard hmem h, fun | .branch _ hmem h => ⟨_, hmem, h⟩⟩
  | opener other =>
      rw [hasOpener, decide_eq_true_iff]
      exact ⟨fun h => h ▸ .opener, fun | .opener => rfl⟩

theorem anyOpener_iff (kind : Opener) (fragments : List Fragment) :
    anyOpener kind fragments = true ↔ ∃ fragment ∈ fragments, fragment.Opens kind := by
  cases fragments with
  | nil => exact ⟨nofun, nofun⟩
  | cons fragment rest =>
      rw [anyOpener, Bool.or_eq_true, hasOpener_iff kind fragment, anyOpener_iff kind rest,
        List.exists_mem_cons_iff]

end

end Fragment

namespace Attribute

/-- An opening stands somewhere in the value of the attribute. -/
def Opens (given : Attribute) (kind : Opener) : Prop :=
  ∃ fragment ∈ given.value, fragment.Opens kind

theorem anyOpener_iff (given : Attribute) (kind : Opener) :
    Fragment.anyOpener kind given.value = true ↔ given.Opens kind :=
  Fragment.anyOpener_iff kind given.value

end Attribute

/-- Blanks and a line end may come in front of the word. -/
example : containsOpener Opener.choice.keyword "a<%\n if".toList = true := by
  decide +kernel

end ComponentTemplates
