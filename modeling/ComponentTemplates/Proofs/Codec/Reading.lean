/-
Module: ComponentTemplates.Proofs.Codec.Reading
Purpose: What the readers of JSON forms make of values that are written in the usual way: a list item by
  item, a record as an object in which every name occurs once, a case in front of its content. So no
  proof about a decoder has to look into a reader.
Main exports: Json.items?_array, Json.mapM_map_of_forall, Json.fields?_object, Json.tagged?_encodeCase
-/
import ComponentTemplates.Codec.Encode
import ComponentTemplates.Codec.Fields
import ComponentTemplates.Proofs.Bindings
import Mathlib.Data.List.Nodup

namespace ComponentTemplates.Json

section Lists

variable {α : Type}

theorem map_parts (items : List Json) : (parts items).map (·.1) = items := by
  simp [parts, List.map_map, Function.comp_def]

/-- Where the place of an item does not matter, a list is read item by item. -/
theorem items?_array (decode : Json → Option α) (items : List Json) :
    (Json.array items).items? (fun part => decode part.1) = items.mapM decode := by
  have hvalues : ((parts items).map (·.1)).mapM decode = items.mapM decode := by rw [map_parts]
  rw [List.mapM_map] at hvalues
  exact hvalues

/-- A list of encoded values is read back if each value is. -/
theorem mapM_map_of_forall {encode : α → Json} {decode : Json → Option α} {values : List α}
    (h : ∀ value ∈ values, decode (encode value) = some value) :
    (values.map encode).mapM decode = some values := by
  induction values with
  | nil => rfl
  | cons value rest ih =>
      rw [List.map_cons, List.mapM_cons, h value (List.mem_cons_self ..),
        ih fun other hother => h other (List.mem_cons_of_mem _ hother)]
      rfl

end Lists

section Records

/-- The members of a name, without the passage they are read in. -/
theorem map_named (members : List (String × Json)) (name : String) :
    (named members name).map (·.1) =
      members.filterMap fun member => if member.1 = name then some member.2 else none := by
  unfold named
  rw [List.map_filterMap]
  conv_rhs => rw [← List.attach_map_subtype_val members, List.filterMap_map]
  congr 1
  funext ⟨⟨other, value⟩, hmem⟩
  dsimp only [Function.comp_apply]
  split
  · rfl
  · rfl

/-- The first member of a name is the one that is looked up. -/
theorem head?_named (members : List (String × Json)) (name : String) :
    (named members name).head?.map (·.1) = Bindings.get? members name := by
  rw [← List.head?_map, map_named]
  induction members with
  | nil => rfl
  | cons member rest ih =>
      obtain ⟨other, value⟩ := member
      rw [List.filterMap_cons, Bindings.get?_cons]
      by_cases hname : other = name
      · simp [hname]
      · simpa [hname] using ih

theorem length_named (members : List (String × Json)) (name : String) :
    (named members name).length = (Bindings.names members).count name := by
  have hlength := congrArg List.length (map_named members name)
  rw [List.length_map] at hlength
  rw [hlength]
  clear hlength
  induction members with
  | nil => rfl
  | cons member rest ih =>
      obtain ⟨other, value⟩ := member
      simp only [Bindings.names, List.filterMap_cons, List.map_cons, List.count_cons] at ih ⊢
      by_cases hname : other = name
      · simp [hname, ih]
      · simp [hname, ih]

/-- An object in which every name occurs once is a record with these fields. -/
theorem fields?_object (members : List (String × Json))
    (hdistinct : (Bindings.names members).Nodup) (names : List String) :
    ∃ field, (object members).fields? names = some field ∧
      ∀ name value, Bindings.get? members name = some value → ∃ h, field name = some ⟨value, h⟩ := by
  have honce : (names.all fun name => (named members name).length ≤ 1) = true := by
    rw [List.all_eq_true]
    intro name _
    rw [decide_eq_true_iff, length_named]
    exact List.nodup_iff_count_le_one.1 hdistinct name
  refine ⟨fun name => (named members name).head?, if_pos honce, ?_⟩
  intro name value hvalue
  rw [← head?_named, Option.map_eq_some_iff] at hvalue
  obtain ⟨⟨_, hsmaller⟩, hpart, rfl⟩ := hvalue
  exact ⟨hsmaller, hpart⟩

/-- A case in front of its content is read with that content, which is come by as the whole is. -/
theorem tagged?_encodeCase {content : String} (hcontent : content ≠ "kind") (passage : Passage)
    (kind : String) (value : Json) (names : List String) :
    ∃ h, (encodeCase kind content value).tagged? passage "kind" content names =
      some (kind, some ⟨value, h⟩, passage) := by
  have hother : ("kind" == content) = false := beq_eq_false_iff_ne.2 (Ne.symm hcontent)
  have hfirst : precedes [("kind", string kind), (content, value)] "kind" content = true := by
    simp [precedes, List.findIdx_cons, hother]
  refine ⟨sizeOf_lt_of_mem_members (List.mem_cons_of_mem _ (List.mem_singleton.2 rfl)), ?_⟩
  simp [encodeCase, tagged?, named, hcontent, Ne.symm hcontent, hfirst, unitCase?]

end Records

/-- A case without content. -/
theorem tagged?_unit {content : String} (hcontent : content ≠ "kind") (passage : Passage)
    (kind : String) (names : List String) :
    (object [("kind", string kind)]).tagged? passage "kind" content names =
      some (kind, none, passage) := by
  simp [tagged?, named, Ne.symm hcontent, unitCase?]

section Readable

theorem readableItems_iff {items : List Json} :
    readableItems items = true ↔ ∀ item ∈ items, item.readable = true := by
  induction items with
  | nil => simp [readableItems]
  | cons item rest ih => simp [readableItems, ih]

end Readable

end ComponentTemplates.Json
