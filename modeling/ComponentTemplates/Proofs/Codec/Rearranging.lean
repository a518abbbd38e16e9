/-
Module: ComponentTemplates.Proofs.Codec.Rearranging
Purpose: Reading does not depend on how a value is laid out. Anywhere inside it, members may be in another
  order, members without use may come and go, and a field may be left out that has its default
  (`decode_rearranged`). A copy is the one thing that shows: content that stands before its tag is copied,
  and so is a statement with all that is in it. What is copied must be readable, and may name a case in
  ways in which it may not be named elsewhere (`decode_laid_out`).
Main exports: Rearranged, fileForm, decode_rearranged, decode_laid_out
-/
import ComponentTemplates.Proofs.Codec.Alike
import ComponentTemplates.Proofs.Codec.RoundTrip

namespace ComponentTemplates

open Json

/-- The values differ in their layout alone, where what is expected of them is what is expected at the
place. -/
inductive Rearranged : Place → Json → Json → Prop where
  | refl (place : Place) (json : Json) : Rearranged place json json
  | symm {place : Place} {json json' : Json} (h : Rearranged place json json') :
      Rearranged place json' json
  | trans {place : Place} {json json' json'' : Json} (first : Rearranged place json json')
      (second : Rearranged place json' json'') : Rearranged place json json''
  /-- Members are in another order; if that moves content to the other side of its tag, the content must be
  such that it may stand on either side. -/
  | order {place : Place} {members members' : List (String × Json)} (h : members.Perm members')
      (hcontent : place.contentFirst members = place.contentFirst members' ∨ place.Movable members) :
      Rearranged place (.object members) (.object members')
  | member {place : Place} {before after : List (String × Json)} {name : String} {value value' : Json}
      (h : Rearranged (place.member (before ++ (name, value) :: after) name) value value') :
      Rearranged place (.object (before ++ (name, value) :: after))
        (.object (before ++ (name, value') :: after))
  | item {place : Place} {before after : List Json} {value value' : Json}
      (h : Rearranged (place.item (before ++ value :: after) before.length) value value') :
      Rearranged place (.array (before ++ value :: after)) (.array (before ++ value' :: after))
  /-- A member has no use for the case that the other members tell; in a copy, it must be readable. -/
  | unknown {place : Place} {before after : List (String × Json)} {name : String} {value : Json}
      (hform : place.form.isRecord = true) (hunknown : name ∉ place.known (before ++ after))
      (hreadable : place.isDirect = false → value.readable = true) :
      Rearranged place (.object (before ++ (name, value) :: after)) (.object (before ++ after))
  /-- A field of the case has the value that it has if it is missing. -/
  | missing {place : Place} {before after : List (String × Json)} {kind : Option String} {field : Field}
      {value : Json} (hkind : place.kind? (before ++ after) = some kind)
      (hfield : field ∈ place.form.fields kind)
      (hmissing : field.name ∉ Bindings.names (before ++ after))
      (hdefault : field.IsDefault (place.inner (before ++ (field.name, value) :: after)) value) :
      Rearranged place (.object (before ++ (field.name, value) :: after)) (.object (before ++ after))

namespace Rearranged

variable {place : Place} {json json' : Json}

/-- A value cannot be told apart from its rearrangements. -/
theorem alike (h : Rearranged place json json') : place.Alike json json' := by
  induction h with
  | refl place json => exact .refl place json
  | symm _ ih => exact ih.symm
  | trans _ _ first second => exact first.trans second
  | order h hcontent => exact Place.alike_perm h hcontent
  | member _ ih => exact Place.alike_member ih
  | item _ ih => exact Place.alike_item ih
  | unknown hform hunknown hreadable => exact Place.alike_unknown hform hunknown hreadable
  | missing hkind hfield hmissing hdefault =>
      exact Place.alike_missing hkind hfield hmissing hdefault

theorem text_eq (h : Rearranged place json json') : decodeString json = decodeString json' := by
  induction h with
  | refl | order | member | item | unknown | missing => rfl
  | symm _ ih => exact ih.symm
  | trans _ _ first second => exact first.trans second

end Rearranged

/-! ## Files -/

/-- What a file holds, a tag or a list of tags. As an array, a tag begins with its name. -/
def fileForm : Json → Form
  | .array items => if (items.head?.bind decodeString).isSome then .production else .list .production
  | _ => .production

/-- A file holds one production or a list of them. -/
theorem fileForm_cases (json : Json) :
    fileForm json = .production ∨ fileForm json = .list .production := by
  unfold fileForm
  split
  · split
    · exact .inl rfl
    · exact .inr rfl
  · exact .inl rfl

/-- Rearranging a file does not change which of the two forms it has. -/
theorem fileForm_eq_of_rearranged {place : Place} {json json' : Json} (h : Rearranged place json json') :
    fileForm json = fileForm json' := by
  induction h with
  | refl | order | member | unknown | missing => rfl
  | symm _ ih => exact ih.symm
  | trans _ _ first second => exact first.trans second
  | @item place before after value value' h =>
      cases before with
      | nil =>
          change (if (decodeString value).isSome then Form.production else .list .production) = _
          rw [h.text_eq]
          rfl
      | cons first rest => rfl

/-- What has the form of one production is not a list of them. -/
theorem items?_of_fileForm {json : Json} (h : fileForm json = .production) (passage : Passage) :
    json.items? (fun part => decodeProduction passage part.1) = none := by
  cases json with
  | array items =>
      rw [items?_array]
      match items with
      | .string _ :: rest =>
          rw [List.mapM_cons]
          rfl
      | [] | .null :: _ | .bool _ :: _ | .number _ :: _ | .array _ :: _ | .object _ :: _
      | .invalid :: _ => cases h
  | null | bool | number | string | object | invalid => rfl

theorem decodeProduction_of_fileForm {json : Json} (h : fileForm json ≠ .production) (passage : Passage) :
    decodeProduction passage json = none := by
  rw [Option.eq_none_iff_forall_ne_some]
  intro production hproduction
  cases json with
  | array items =>
      refine h ?_
      rw [fileForm, head?_of_decodeProduction hproduction]
      rfl
  | null | bool | number | string | object | invalid => exact h rfl

/-- A file that holds a tag is read as one, and a file that holds a list as a list. -/
theorem decodeProductions_of_form (json : Json) :
    decodeProductions json =
      if json.readable then
        if fileForm json = .production then
          (Form.decode .production .shared json).map fun production => [production]
        else Form.decode (.list .production) .shared json
      else none := by
  unfold decodeProductions
  congr 1
  split
  · rename_i hform
    rw [items?_of_fileForm hform]
    rfl
  · rename_i hform
    rw [decodeProduction_of_fileForm hform]
    simp [Form.decode]

/-! ## Readers -/

/-- Values that differ in their layout alone are read as the same, or both refused: what is expected may be
any form, come by in any way, or a file of tags. -/
theorem decode_rearranged :
    (∀ (form : Form) (passage : Passage) (json json' : Json), Rearranged ⟨form, passage⟩ json json' →
      form.decode passage json = form.decode passage json') ∧
    ∀ json json' : Json, Rearranged ⟨fileForm json, .shared⟩ json json' →
      decodeProductions json = decodeProductions json' := by
  refine ⟨fun form passage json json' h => h.alike.decode, ?_⟩
  intro json json' h
  have hreadable : json.readable = json'.readable :=
    h.alike.readable (Place.isDirect_of_ne Passage.noConfusion)
  have hdecode := h.alike.decode
  rw [decodeProductions_of_form, decodeProductions_of_form, ← fileForm_eq_of_rearranged h, hreadable]
  rcases fileForm_cases json with hform | hform
  · rw [hform] at hdecode ⊢
    rw [if_pos rfl, if_pos rfl]
    exact congrArg (fun read => if json'.readable then read.map fun production => [production] else none)
      hdecode
  · rw [hform] at hdecode ⊢
    exact congrArg (fun read => if json'.readable then read else none) hdecode

/-- A call with its tag in front and its mode written out, and the same call without either. -/
def writtenCall : Json :=
  .object [("kind", .string "call"),
    ("value", .object [("steps", .array []), ("mode", .string "render")])]

def rearrangedCall : Json :=
  .object [("note", .invalid), ("value", .object [("steps", .array [])]), ("kind", .string "call")]

/-- A list of one tag, in whose inner markup a statement begins with its operation or ends with it. -/
def writtenFile : Json :=
  .array [.object [("name", .string "tabs"), ("children", .object [("statements",
    .array [.object [("op", .string "initProperty"), ("name", .string "title")]])])]]

def rearrangedFile : Json :=
  .array [.object [("name", .string "tabs"), ("children", .object [("statements",
    .array [.object [("name", .string "title"), ("op", .string "initProperty")]])])]]

/-- A lookup without steps may be copied before it is read. -/
theorem not_loose_steps : ¬ Place.Loose ⟨.lookup, .direct⟩ (.object [("steps", .array [])]) := by
  intro h
  cases h with
  | member hmem h =>
      rw [List.mem_singleton] at hmem
      cases hmem
      cases h with
      | item hitem => cases hitem

/-- The call and the file, rearranged, are read as before. -/
theorem decode_rearranged_call :
    Rearranged ⟨.fragment, .direct⟩ writtenCall rearrangedCall ∧
      decodeFragment .direct writtenCall = decodeFragment .direct rearrangedCall ∧
      Rearranged ⟨fileForm writtenFile, .shared⟩ writtenFile rearrangedFile ∧
      decodeProductions writtenFile = decodeProductions rearrangedFile := by
  have hmode : Rearranged ⟨.fragment, .direct⟩ writtenCall
      (.object [("kind", .string "call"), ("value", .object [("steps", .array [])])]) :=
    @Rearranged.member _ [("kind", .string "call")] [] "value" _ _
      (@Rearranged.missing _ [("steps", .array [])] [] none ⟨"mode", .mode, .defaulted .render⟩ _
        rfl (List.mem_cons_of_mem _ (List.mem_singleton_self _)) (by decide) ⟨.render, rfl, rfl⟩)
  have hmovable : Place.Movable ⟨.fragment, .direct⟩
      [("kind", .string "call"), ("value", .object [("steps", .array [])])] := by
    rintro name value hcontent hmem
    cases hcontent
    rcases List.mem_cons.1 hmem with hmem | hmem
    · exact absurd (Prod.mk.inj hmem).1 (by decide)
    · rw [List.mem_singleton] at hmem
      cases hmem
      exact ⟨rfl, not_loose_steps⟩
  have horder := @Rearranged.order ⟨.fragment, .direct⟩ _ _ (.swap _ _ []) (.inr hmovable)
  have hnote : Rearranged ⟨.fragment, .direct⟩ rearrangedCall
      (.object [("value", .object [("steps", .array [])]), ("kind", .string "call")]) :=
    @Rearranged.unknown _ [] _ "note" .invalid rfl (by decide) nofun
  have hcall := (hmode.trans horder).trans hnote.symm
  have hstatement := @Rearranged.order ⟨.statement, .shared⟩ _ _
    (.swap ("name", .string "title") ("op", .string "initProperty") []) (.inl rfl)
  have hfile : Rearranged ⟨fileForm writtenFile, .shared⟩ writtenFile rearrangedFile :=
    @Rearranged.item _ [] [] _ _ (@Rearranged.member _ [_] [] "children" _ _
      (@Rearranged.member _ [] [] "statements" _ _ (@Rearranged.item _ [] [] _ _ hstatement)))
  exact ⟨hcall, decode_rearranged.1 _ _ _ _ hcall, hfile, decode_rearranged.2 _ _ hfile⟩

/-- The name of a case with an empty object behind it. -/
def hollowOpener : Json :=
  .object [("if", .object [])]

/-- A branch whose one part tells its case by number. -/
def numberedBranch : Json :=
  .object [("body", .array [.array [.number (.integer 0), .string "x"]])]

/-- A lookup with a member that has no use and cannot be read. -/
def notedLookup : Json :=
  .object [("steps", .array []), ("note", .invalid)]

/-- What a copy changes. An empty object behind the name of a case, and the number of a case, are refused
behind a tag and accepted in front of it; what cannot be read is passed over behind a tag and refused in
front of it, and refused within a statement. -/
theorem decode_laid_out :
    (decodeFragment .direct (.object [("kind", .string "opener"), ("value", hollowOpener)]) = none ∧
      decodeFragment .direct (.object [("value", hollowOpener), ("kind", .string "opener")]) =
        some (.opener .choice)) ∧
    (decodeFragment .direct (.object [("kind", .string "branch"), ("value", numberedBranch)]) = none ∧
      decodeFragment .direct (.object [("value", numberedBranch), ("kind", .string "branch")]) =
        some (.branch none [.literal "x"])) ∧
    (decodeFragment .direct (.object [("kind", .string "call"), ("value", notedLookup)]) =
        some (.value { steps := [] }) ∧
      decodeFragment .direct (.object [("value", notedLookup), ("kind", .string "call")]) = none) ∧
    decodeStatement .direct (.object [("op", .string "beginProps")]) = some .beginProps ∧
    decodeStatement .direct (.object [("op", .string "beginProps"), ("note", .invalid)]) = none := by
  refine ⟨⟨?_, ?_⟩, ⟨?_, ?_⟩, ⟨?_, ?_⟩, ?_, ?_⟩
  all_goals cbv

end ComponentTemplates
