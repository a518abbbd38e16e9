/-
Module: ComponentTemplates.Proofs.Codec.Alike
Purpose: Values that cannot be told apart at a place: they are read as the same, and where a copy is made
  of what stands there, it can be made of both or of neither. Values stay alike when members change places,
  when a part takes the place of one that is alike, when a member is put in that has no use, and when a
  field is left out that stands for the same if it is missing.
Main exports: Place.Alike, Place.Movable, Place.alike_perm, Place.alike_member, Place.alike_item,
  Place.alike_unknown, Place.alike_missing
-/
import ComponentTemplates.Proofs.Codec.Default
import ComponentTemplates.Proofs.Codec.Place

namespace ComponentTemplates

open Json

namespace Place

variable {place : Place} {members members' before after : List (String × Json)} {name : String}
  {value value' : Json}

/-- What stands at the place is gone through as it stands, so that what has no use is passed over and need
not be readable. -/
def isDirect (place : Place) : Bool :=
  place.passage = .direct &&
    match place.form with
    | .list _ => true
    | form => form.isRecord && !form.isCopied

/-- The values cannot be told apart at the place. -/
structure Alike (place : Place) (json json' : Json) : Prop where
  decode : place.decode json = place.decode json'
  null : json = .null ↔ json' = .null
  readable : place.isDirect = false → json.readable = json'.readable

namespace Alike

theorem refl (place : Place) (json : Json) : place.Alike json json :=
  ⟨rfl, Iff.rfl, fun _ => rfl⟩

theorem symm (h : place.Alike value value') : place.Alike value' value :=
  ⟨h.decode.symm, h.null.symm, fun hplace => (h.readable hplace).symm⟩

theorem trans {value'' : Json} (first : place.Alike value value') (second : place.Alike value' value'') :
    place.Alike value value'' :=
  ⟨first.decode.trans second.decode, first.null.trans second.null,
    fun hplace => (first.readable hplace).trans (second.readable hplace)⟩

end Alike

/-! ## What is inside a copy -/

theorem isDirect_of_ne {form : Form} {passage : Passage} (h : passage ≠ .direct) :
    (Place.mk form passage).isDirect = false := by
  simp [isDirect, h]

@[simp]
theorem isDirect_copied (form : Form) : (Place.mk form .copied).isDirect = false := by
  simp [isDirect]

@[simp]
theorem isDirect_tag (alone : Bool) (names : List String) (passage : Passage) :
    (Place.mk (.tag alone names) passage).isDirect = false := by
  simp [isDirect, Form.isRecord]

theorem isDirect_of_other {place : Place} (h : place.form = .other) : place.isDirect = false := by
  simp [isDirect, h, Form.isRecord]

/-- A record that is not read directly does not hold its parts directly. -/
theorem held_ne (hform : place.form.isRecord = true) (h : place.isDirect = false) :
    place.held ≠ .direct := by
  obtain ⟨form, passage⟩ := place
  rw [held]
  split
  · exact Passage.noConfusion
  · rename_i hcopied
    rintro rfl
    cases form with
    | list => cases hform
    | _ => simp_all [isDirect]

theorem inner_ne (hform : place.form.isRecord = true) (h : place.isDirect = false)
    (members : List (String × Json)) : place.inner members ≠ .direct := by
  rw [inner]
  split
  · exact Passage.noConfusion
  · exact held_ne hform h

/-- Nobody looks into what has neither fields nor items. -/
theorem member_of_leaf (hform : place.form.isRecord = false) (members : List (String × Json))
    (name : String) : (place.member members name).form = .other := by
  obtain ⟨form, passage⟩ := place
  cases form with
  | other | nothing | text | line | mode | opener | tag | list => rfl
  | _ => cases hform

/-- Nor at the items of what is neither a record nor a list. -/
theorem item_of_leaf (hform : place.form.isRecord = false) (hlist : ∀ item, place.form ≠ .list item)
    (items : List Json) (index : Nat) : (place.item items index).form = .other := by
  obtain ⟨form, passage⟩ := place
  cases form with
  | other | nothing | text | line | mode | opener | tag => rfl
  | list item => exact absurd rfl (hlist item)
  | _ => cases hform

theorem isDirect_member (h : place.isDirect = false) (members : List (String × Json)) (name : String) :
    (place.member members name).isDirect = false := by
  by_cases hform : place.form.isRecord = true
  · unfold member
    split
    · split
      · exact isDirect_tag ..
      · exact isDirect_of_ne (inner_ne hform h members)
    · exact isDirect_of_ne (inner_ne hform h members)
  · exact isDirect_of_other (member_of_leaf (Bool.eq_false_iff.2 hform) members name)

theorem isDirect_places (hform : place.form.isRecord = true) (h : place.isDirect = false)
    {items : List Json} {part : Place} (hpart : part ∈ place.places items) : part.isDirect = false := by
  rw [places, List.mem_append, Option.mem_toList, Option.map_eq_some_iff, List.mem_map] at hpart
  rcases hpart with ⟨tag, -, rfl⟩ | ⟨field, -, rfl⟩
  · exact isDirect_tag ..
  · exact isDirect_of_ne (held_ne hform h)

/-- The items of what is not read directly are not read directly. -/
theorem isDirect_item (h : place.isDirect = false) (items : List Json) (index : Nat) :
    (place.item items index).isDirect = false := by
  by_cases hform : place.form.isRecord = true
  · rw [item_eq hform]
    cases hpart : (place.places items)[index]? with
    | none => exact isDirect_of_other rfl
    | some part => exact isDirect_places hform h (List.mem_of_getElem? hpart)
  · by_cases hlist : ∃ item, place.form = .list item
    · obtain ⟨form, passage⟩ := place
      obtain ⟨item, rfl⟩ := hlist
      exact isDirect_of_ne (by simpa [isDirect] using h)
    · refine isDirect_of_other (item_of_leaf (Bool.eq_false_iff.2 hform) ?_ items index)
      exact fun item hitem => hlist ⟨item, hitem⟩

end Place

/-! ## Objects that have no fields -/

/-- An object with one member names a case exactly if the member's value counts as no content. -/
theorem Json.unitCase?_singleton (passage : Passage) (name : String) (value : Json) :
    unitCase? passage (.object [(name, value)]) =
      match value.glance with
      | .null => some name
      | .empty => if passage.allowsEmptyObject then some name else none
      | .full => none := by
  match value with
  | .object [] | .object (_ :: _) | .null | .bool _ | .number _ | .string _ | .array _ | .invalid => rfl

/-- Only an object with one member can name a case. -/
theorem Json.unitCase?_of_length {members : List (String × Json)} (h : members.length ≠ 1)
    (passage : Passage) : unitCase? passage (.object members) = none := by
  match members with
  | [] => rfl
  | [_] => exact absurd rfl h
  | _ :: _ :: _ => simp [unitCase?]

namespace Place

variable {place : Place} {members members' before after : List (String × Json)} {name : String}
  {value value' : Json}

/-- A form without fields reads from an object no more than its glance and the case it names. -/
theorem decode_leaf_object {form : Form} {passage : Passage} (hform : form.isRecord = false)
    (hglance : (Json.object members).glance = (Json.object members').glance)
    (hcase : unitCase? passage (.object members) = unitCase? passage (.object members')) :
    form.decode passage (.object members) = form.decode passage (.object members') := by
  cases form with
  | other => exact congrArg some hglance
  | nothing => simp only [Form.decode, hglance]
  | mode => simp only [Form.decode, decodeMode, hcase]
  | opener => simp only [Form.decode, decodeOpener, hcase]
  | tag alone names =>
      cases alone with
      | false => simp only [Form.decode, hcase]
      | true => rfl
  | text | line | list => rfl
  | _ => cases hform

/-! ## Members change places -/

/-- What is expected of the content of a case. -/
def content (place : Place) (members : List (String × Json)) (name : String) : Place :=
  ⟨fieldForm (place.fields members) name, place.passage⟩

/-- The content of the case, if it is kept apart, may stand before or after its tag: a copy can be made of
it, and is read as the content itself. -/
def Movable (place : Place) (members : List (String × Json)) : Prop :=
  ∀ name value, place.form.content? = some name → (name, value) ∈ members →
    value.readable = true ∧ ¬ Loose (place.content members name) value

theorem glance_perm (h : members.Perm members') :
    (Json.object members).glance = (Json.object members').glance := by
  cases members with
  | nil => rw [h.nil_eq]
  | cons member rest =>
      cases members' with
      | nil => cases h.eq_nil
      | cons member' rest' => rfl

theorem unitCase?_perm (h : members.Perm members') (passage : Passage) :
    unitCase? passage (.object members) = unitCase? passage (.object members') := by
  by_cases hlength : members.length = 1
  · obtain ⟨member, rfl⟩ := List.length_eq_one_iff.1 hlength
    rw [List.singleton_perm.1 h]
  · rw [unitCase?_of_length hlength, unitCase?_of_length (h.length_eq ▸ hlength)]

theorem kind?_perm (h : members.Perm members') : place.kind? members = place.kind? members' := by
  refine kind?_eq_of_tag ?_
  intro tag _
  rw [part?, part?, only?_perm h]

/-- The case that is told has the content as its only field. -/
theorem fields_of_content {content : String} (hcontent : place.form.content? = some content)
    {kind : Option String} (hkind : place.kind? members = some kind) :
    (place.form.fields kind).map Field.name = [content] := by
  obtain ⟨names, hform⟩ := Form.keepsApart_of_content hcontent
  simp only [kind?, hform.tag, Option.map_eq_some_iff, Option.bind_eq_some_iff] at hkind
  obtain ⟨_, ⟨_, -, hdecode⟩, rfl⟩ := hkind
  exact hform.fields _ (mem_of_decode_tag hdecode)

/-- With a content field, the content comes first unless the tag precedes it. -/
theorem contentFirst_of_content {content : String} (hcontent : place.form.content? = some content)
    (members : List (String × Json)) :
    place.contentFirst members = !precedes members "kind" content := by
  rw [contentFirst, hcontent]

/-- With a content field, a record can be copied if the tag comes first or the content is readable. -/
theorem copies_of_content {content : String} (hcontent : place.form.content? = some content)
    (members : List (String × Json)) :
    place.copies members = (!place.contentFirst members || (part? members content).all readable) := by
  rw [copies, contentFirst, hcontent]
  simp

/-- Without a content field only a statement has to be readable as a whole. -/
theorem copies_of_no_content (hcontent : place.form.content? = none) (members : List (String × Json)) :
    place.copies members = (place.form ≠ .statement || (Json.object members).readable) := by
  rw [copies, hcontent]

/-- Without a content field the fields are read as the record is held. -/
theorem inner_of_no_content (hcontent : place.form.content? = none) (members : List (String × Json)) :
    place.inner members = place.held := by
  rw [inner, contentFirst, hcontent]
  rfl

/-- Reordering members keeps what has to be copied, as long as tag and content keep their order or the
content is movable. -/
theorem copies_perm (h : members.Perm members')
    (horder : place.contentFirst members = place.contentFirst members' ∨ place.Movable members) :
    place.copies members = place.copies members' := by
  cases hcontent : place.form.content? with
  | none =>
      rw [copies_of_no_content hcontent, copies_of_no_content hcontent, readable_object_perm h]
  | some content =>
      have hpart : part? members content = part? members' content := by
        rw [part?, part?, only?_perm h]
      rw [copies_of_content hcontent, copies_of_content hcontent, ← hpart]
      rcases horder with horder | hmovable
      · rw [horder]
      · have hreadable : (part? members content).all readable = true := by
          rw [Option.all_eq_true]
          intro value hvalue
          exact (hmovable _ _ hcontent (mem_of_part? hvalue)).1
        rw [hreadable, Bool.or_true, Bool.or_true]

/-- Content that may stand on either side of its tag is read as from a copy. -/
theorem decode_movable {content : String} (hcontent : place.form.content? = some content)
    (hmovable : place.Movable members) {kind : Option String} (hkind : place.kind? members = some kind)
    {field : Field} (hfield : field ∈ place.form.fields kind)
    (hvalue : part? members field.name = some value) (members' : List (String × Json)) :
    field.form.decode (place.inner members') value = field.form.decode .copied value := by
  have hname : field.name ∈ [content] :=
    fields_of_content hcontent hkind ▸ List.mem_map.2 ⟨field, hfield, rfl⟩
  rw [List.mem_singleton] at hname
  have htight := (hmovable _ _ (hname ▸ hcontent) (mem_of_part? hvalue)).2
  rw [Place.content, fieldForm_of_kind hkind hfield] at htight
  rw [inner, held_of_content hcontent]
  split
  · rfl
  · exact decode_copied _ _ _ htight

/-- **Reordering**: members may change places, with the exception that the tag and its content may only
where the content is movable. -/
theorem alike_perm (h : members.Perm members')
    (horder : place.contentFirst members = place.contentFirst members' ∨ place.Movable members) :
    place.Alike (.object members) (.object members') := by
  refine ⟨?_, by simp, fun _ => readable_object_perm h⟩
  by_cases hform : place.form.isRecord = true
  · refine Form.decode_object_eq hform (kind?_perm h) (fun _ _ => copies_perm h horder) ?_
    intro kind hkind field hfield
    rw [← only?_perm h]
    refine rel_only? (Field.read_none ..) ?_
    intro value hvalue
    refine Field.read_some Iff.rfl ?_
    cases hcontent : place.form.content? with
    | none => rw [inner_of_no_content hcontent, inner_of_no_content hcontent]
    | some content =>
        rcases horder with horder | hmovable
        · rw [inner, inner, horder]
        · -- on one side of its tag the content is copied, on the other it need not be
          rw [decode_movable hcontent hmovable hkind hfield hvalue,
            decode_movable hcontent hmovable hkind hfield hvalue]
  · exact decode_leaf_object (Bool.eq_false_iff.2 hform) (glance_perm h) (unitCase?_perm h _)

/-! ## A part takes the place of one that is alike -/

theorem glance_replace :
    (Json.object (before ++ (name, value) :: after)).glance =
      (Json.object (before ++ (name, value') :: after)).glance := by
  cases before <;> rfl

theorem unitCase?_replace (h : value.glance = value'.glance) (passage : Passage) :
    unitCase? passage (.object (before ++ (name, value) :: after)) =
      unitCase? passage (.object (before ++ (name, value') :: after)) := by
  by_cases hlength : (before ++ (name, value) :: after).length = 1
  · rw [List.length_append, List.length_cons] at hlength
    obtain rfl : before = [] := List.eq_nil_of_length_eq_zero (by omega)
    obtain rfl : after = [] := List.eq_nil_of_length_eq_zero (by simpa using hlength)
    rw [List.nil_append, List.nil_append, unitCase?_singleton, unitCase?_singleton, h]
  · rw [unitCase?_of_length hlength, unitCase?_of_length (by simpa using hlength)]

theorem kind?_replace
    (h : (place.member (before ++ (name, value) :: after) name).Alike value value') :
    place.kind? (before ++ (name, value) :: after) = place.kind? (before ++ (name, value') :: after) := by
  refine kind?_eq_of_tag ?_
  intro tag htag
  by_cases hname : name = tag.name
  · subst hname
    rw [member_of_tag htag] at h
    rcases only?_replace before after tag.name value value' with ⟨hvalue, hvalue'⟩ | ⟨hvalue, hvalue'⟩
    · rw [part?_of_only? hvalue, part?_of_only? hvalue']
      exact h.decode
    · rw [part?, part?, hvalue, hvalue']
  · rw [part?, part?, only?_replace_of_ne hname]

/-- Whether the content comes first depends only on the names of the members. -/
theorem contentFirst_replace (place : Place) (before after : List (String × Json)) (name : String)
    (value value' : Json) :
    place.contentFirst (before ++ (name, value) :: after) =
      place.contentFirst (before ++ (name, value') :: after) := by
  unfold contentFirst
  cases place.form.content? with
  | none => rfl
  | some content => exact congrArg Bool.not precedes_replace

/-- How the fields are read depends only on whether the content comes first. -/
theorem inner_eq_of_contentFirst (h : place.contentFirst members = place.contentFirst members') :
    place.inner members = place.inner members' := by
  rw [inner, inner, h]

/-- Replacing a value by one that is alike in its place keeps what has to be copied. -/
theorem copies_replace {kind : Option String}
    (hkind : place.kind? (before ++ (name, value) :: after) = some kind)
    (h : (place.member (before ++ (name, value) :: after) name).Alike value value') :
    place.copies (before ++ (name, value) :: after) =
      place.copies (before ++ (name, value') :: after) := by
  cases hcontent : place.form.content? with
  | none =>
      rw [copies_of_no_content hcontent, copies_of_no_content hcontent]
      by_cases hform : place.form = .statement
      · have hplace : place.isDirect = false := by simp [isDirect, hform, Form.isCopied]
        rw [readable_object_replace (h.readable (isDirect_member hplace _ _))]
      · simp [hform]
  | some content =>
      rw [copies_of_content hcontent, copies_of_content hcontent,
        contentFirst_replace place before after name value' value]
      cases hfirst : place.contentFirst (before ++ (name, value) :: after) with
      | false => rfl
      | true =>
          -- content in front of its tag stands at a place that is copied
          by_cases hname : name = content
          · obtain ⟨field, hfields, rfl⟩ :=
              List.map_eq_singleton_iff.1 (fields_of_content hcontent hkind)
            have hfield : field ∈ place.form.fields kind := hfields ▸ List.mem_singleton_self _
            have hinner : place.inner (before ++ (name, value) :: after) = .copied := by
              rw [inner, hfirst]
              rfl
            rw [hname, member_of_field (hname ▸ hkind) hfield, ← hname, hinner] at h
            rw [← hname]
            rcases only?_replace before after name value value' with
              ⟨hvalue, hvalue'⟩ | ⟨hvalue, hvalue'⟩
            · rw [part?_of_only? hvalue, part?_of_only? hvalue', Option.all_some, Option.all_some,
                h.readable (isDirect_copied _)]
            · rw [part?, part?, hvalue, hvalue']
          · rw [part?, part?, only?_replace_of_ne hname]

/-- **Congruence of objects**: a member may be replaced by a value that is alike in its place. -/
theorem alike_member
    (h : (place.member (before ++ (name, value) :: after) name).Alike value value') :
    place.Alike (.object (before ++ (name, value) :: after))
      (.object (before ++ (name, value') :: after)) := by
  refine ⟨?_, by simp, fun hplace =>
    readable_object_replace (h.readable (isDirect_member hplace _ _))⟩
  by_cases hform : place.form.isRecord = true
  · refine Form.decode_object_eq hform (kind?_replace h) (fun _ hkind => copies_replace hkind h) ?_
    intro kind hkind field hfield
    have hinner := inner_eq_of_contentFirst (contentFirst_replace place before after name value value')
    by_cases hname : name = field.name
    · subst hname
      rw [member_of_field hkind hfield] at h
      rcases only?_replace before after field.name value value' with
        ⟨hvalue, hvalue'⟩ | ⟨hvalue, hvalue'⟩
      · rw [hvalue, hvalue', ← hinner]
        exact .some (Field.read_some h.null h.decode)
      · rw [hvalue, hvalue']
        exact .none
    · rw [only?_replace_of_ne hname, ← hinner]
      exact rel_only? rfl fun _ _ => rfl
  · have hother := member_of_leaf (Bool.eq_false_iff.2 hform) (before ++ (name, value) :: after) name
    generalize place.member (before ++ (name, value) :: after) name = member at h hother
    obtain ⟨_, _⟩ := member
    subst hother
    have hglance : value.glance = value'.glance := Option.some.inj h.decode
    exact decode_leaf_object (Bool.eq_false_iff.2 hform) glance_replace (unitCase?_replace hglance _)

section Items

variable {before after : List Json}

theorem kindOf?_replace (hform : place.form.isRecord = true)
    (h : (place.item (before ++ value :: after) before.length).Alike value value') :
    place.kindOf? (before ++ value :: after) = place.kindOf? (before ++ value' :: after) := by
  refine kindOf?_eq_of_tag ?_
  intro tag htag
  cases before with
  | nil =>
      rw [List.length_nil, item_of_tag hform htag] at h
      exact h.decode
  | cons first rest => rfl

theorem admits_replace (h : (place.item (before ++ value :: after) before.length).Alike value value')
    (count : Nat) :
    place.admits (before ++ value :: after) count = place.admits (before ++ value' :: after) count := by
  unfold admits
  split
  · rfl
  · simp
  · simp
  · simp
  · rename_i hstatement
    have hplace : place.isDirect = false := by simp [isDirect, hstatement, Form.isCopied]
    rw [readable_array_replace (h.readable (isDirect_item hplace _ _))]
    simp
  · simp

theorem getElem?_replace {index : Nat} (h : index ≠ before.length) :
    (before ++ value :: after)[index]? = (before ++ value' :: after)[index]? := by
  have hset : before ++ value' :: after = (before ++ value :: after).set before.length value' := by
    simp
  rw [hset, List.getElem?_set_ne h.symm]

/-- **Congruence of arrays**: an item may be replaced by a value that is alike in its place. -/
theorem alike_item (h : (place.item (before ++ value :: after) before.length).Alike value value') :
    place.Alike (.array (before ++ value :: after)) (.array (before ++ value' :: after)) := by
  refine ⟨?_, by simp, fun hplace =>
    readable_array_replace (h.readable (isDirect_item hplace _ _))⟩
  by_cases hform : place.form.isRecord = true
  · refine Form.decode_array_eq hform (kindOf?_replace hform h) (admits_replace h) ?_
    intro kind hkind field hfield
    by_cases hindex : (place.form.names kind).idxOf field.name = before.length
    · have hplace := item_of_field hform hkind hfield
      rw [hindex] at hplace
      rw [hplace] at h
      rw [hindex, List.getElem?_append_right (Nat.le_refl _), List.getElem?_append_right (Nat.le_refl _),
        Nat.sub_self]
      exact Field.read_some h.null h.decode
    · rw [getElem?_replace hindex]
  · obtain ⟨form, passage⟩ := place
    cases form with
    | list item =>
        change (Form.list item).decode passage _ = (Form.list item).decode passage _
        have hitem : item.decode passage value = item.decode passage value' := h.decode
        simp only [Form.decode, items?_array, List.mapM_append, List.mapM_cons, hitem]
    | other | nothing | text | line | mode | opener => rfl
    | tag alone names => cases alone <;> rfl
    | _ => exact absurd rfl hform

end Items

/-! ## A member without use is put in -/

/-- What an object has a use for: its tag, and the fields of the case that it tells. -/
theorem mem_known_of_tag {tag : Tag} (htag : place.form.tag? = some tag)
    (members : List (String × Json)) : tag.name ∈ place.known members := by
  simp [known, htag]

/-- A field of the record's kind is one of the names it knows. -/
theorem mem_known_of_field {kind : Option String} (hkind : place.kind? members = some kind)
    {field : Field} (hfield : field ∈ place.form.fields kind) : field.name ∈ place.known members := by
  rw [known, fields, hkind, Option.elim_some]
  exact List.mem_append_right _ (List.mem_map.2 ⟨field, hfield, rfl⟩)

theorem kind?_insert (hname : ∀ tag, place.form.tag? = some tag → name ≠ tag.name) :
    place.kind? (before ++ (name, value) :: after) = place.kind? (before ++ after) := by
  refine kind?_eq_of_tag ?_
  intro tag htag
  rw [part?, part?, only?_insert_of_ne (hname tag htag)]

/-- A member that is neither the tag nor the content does not change which of them comes first. -/
theorem contentFirst_insert (htag : ∀ tag, place.form.tag? = some tag → name ≠ tag.name)
    (hname : ∀ content, place.form.content? = some content → name ≠ content) :
    place.contentFirst (before ++ (name, value) :: after) = place.contentFirst (before ++ after) := by
  cases hcontent : place.form.content? with
  | none => simp only [contentFirst, hcontent]
  | some content =>
      obtain ⟨names, hform⟩ := Form.keepsApart_of_content hcontent
      rw [contentFirst_of_content hcontent, contentFirst_of_content hcontent,
        precedes_insert hform.ne (htag _ hform.tag) (hname content hcontent)]

/-- A readable member that is neither the tag nor the content does not change what has to be copied. -/
theorem copies_insert (htag : ∀ tag, place.form.tag? = some tag → name ≠ tag.name)
    (hname : ∀ content, place.form.content? = some content → name ≠ content)
    (hreadable : place.isDirect = false → value.readable = true) :
    place.copies (before ++ (name, value) :: after) = place.copies (before ++ after) := by
  cases hcontent : place.form.content? with
  | none =>
      rw [copies_of_no_content hcontent, copies_of_no_content hcontent]
      by_cases hform : place.form = .statement
      · rw [readable_object_insert (hreadable (by simp [isDirect, hform, Form.isCopied]))]
      · simp [hform]
  | some content =>
      rw [copies_of_content hcontent, copies_of_content hcontent, contentFirst_insert htag hname,
        part?, part?, only?_insert_of_ne (hname content hcontent)]

/-- **Unknown members**: a member with a name that the record does not know may be added or left out. -/
theorem alike_unknown (hform : place.form.isRecord = true)
    (hunknown : name ∉ place.known (before ++ after))
    (hreadable : place.isDirect = false → value.readable = true) :
    place.Alike (.object (before ++ (name, value) :: after)) (.object (before ++ after)) := by
  refine ⟨?_, by simp, fun hplace => readable_object_insert (hreadable hplace)⟩
  have htag (tag : Tag) (htag : place.form.tag? = some tag) : name ≠ tag.name := by
    rintro rfl
    exact hunknown (mem_known_of_tag htag _)
  have hfields {kind : Option String} (hkind : place.kind? (before ++ after) = some kind) {field : Field}
      (hfield : field ∈ place.form.fields kind) : name ≠ field.name := by
    rintro rfl
    exact hunknown (mem_known_of_field hkind hfield)
  have hcontent {kind : Option String} (hkind : place.kind? (before ++ after) = some kind)
      (content : String) (hcontent : place.form.content? = some content) : name ≠ content := by
    obtain ⟨field, heq, rfl⟩ := List.map_eq_singleton_iff.1 (fields_of_content hcontent hkind)
    exact hfields hkind (heq ▸ List.mem_singleton_self _)
  refine Form.decode_object_eq hform (kind?_insert htag) ?_ ?_
  · intro kind hkind
    rw [kind?_insert htag] at hkind
    exact copies_insert htag (hcontent hkind) hreadable
  · intro kind hkind field hfield
    rw [kind?_insert htag] at hkind
    have hinner : place.inner (before ++ (name, value) :: after) = place.inner (before ++ after) :=
      inner_eq_of_contentFirst (contentFirst_insert htag (hcontent hkind))
    rw [only?_insert_of_ne (hfields hkind hfield), hinner]
    exact rel_only? rfl fun _ _ => rfl

end Place

/-! ## A field is left out -/

namespace Place

variable {place : Place} {before after : List (String × Json)} {kind : Option String} {field : Field}
  {value : Json}

/-- The fields of a kind have distinct names. -/
theorem eq_of_name_eq {form : Form} {other : Field} (hfield : field ∈ form.fields kind)
    (hother : other ∈ form.fields kind) (hname : field.name = other.name) : field = other :=
  List.inj_on_of_nodup_map (form.nodup_fields kind) hfield hother hname

/-- Where the content of the case is left out, it counts as standing behind its tag. -/
theorem contentFirst_missing (hkind : place.kind? (before ++ after) = some kind)
    (hmissing : field.name ∉ Bindings.names (before ++ after))
    (hcontent : place.form.content? = some field.name) :
    place.contentFirst (before ++ after) = false := by
  obtain ⟨names, hform⟩ := Form.keepsApart_of_content hcontent
  simp only [kind?, hform.tag, Option.map_eq_some_iff, Option.bind_eq_some_iff] at hkind
  obtain ⟨_, ⟨tag, htold, -⟩, -⟩ := hkind
  rw [contentFirst_of_content hcontent, precedes_of_missing (mem_names_of_part? htold) hmissing]
  rfl

/-- A readable value for a field that was missing does not change what has to be copied. -/
theorem copies_missing (hkind : place.kind? (before ++ after) = some kind)
    (hfield : field ∈ place.form.fields kind)
    (hmissing : field.name ∉ Bindings.names (before ++ after)) (hreadable : value.readable = true) :
    place.copies (before ++ (field.name, value) :: after) = place.copies (before ++ after) := by
  by_cases hcontent : place.form.content? = some field.name
  · rw [copies_of_content hcontent, copies_of_content hcontent,
      contentFirst_missing hkind hmissing hcontent, part?_of_only? (only?_insert hmissing).1,
      Option.all_some, hreadable, Bool.or_true]
    rfl
  · refine copies_insert (fun _ htag => name_ne_tag htag hfield) ?_ fun _ => hreadable
    rintro content hname rfl
    exact hcontent hname

/-- **Defaults**: a field may be left out where its value is the default. -/
theorem alike_missing (hkind : place.kind? (before ++ after) = some kind)
    (hfield : field ∈ place.form.fields kind)
    (hmissing : field.name ∉ Bindings.names (before ++ after))
    (hdefault : field.IsDefault (place.inner (before ++ (field.name, value) :: after)) value) :
    place.Alike (.object (before ++ (field.name, value) :: after)) (.object (before ++ after)) := by
  have hreadable : value.readable = true := Field.mild_of_mem _ _ _ hfield _ _ hdefault
  have htag (tag : Tag) (htag : place.form.tag? = some tag) : field.name ≠ tag.name :=
    name_ne_tag htag hfield
  have hform := Form.isRecord_of_field hfield
  refine ⟨?_, by simp, fun _ => readable_object_insert hreadable⟩
  refine Form.decode_object_eq hform (kind?_insert htag)
    (fun _ _ => copies_missing hkind hfield hmissing hreadable) ?_
  intro told htold other hother
  rw [kind?_insert htag, hkind] at htold
  cases htold
  by_cases hname : field.name = other.name
  · obtain rfl : field = other := eq_of_name_eq hfield hother hname
    have hseen := @only?_insert _ _ _ value hmissing
    obtain ⟨read, hnone, hsome⟩ := hdefault
    rw [hseen.1, hseen.2]
    refine .some ?_
    rw [hsome, Field.read_none field _ (place.inner (before ++ (field.name, value) :: after)), hnone]
  · -- a content would be the only field of the case, so that there would be no other
    have hcontent (content : String) (hcontent : place.form.content? = some content) :
        field.name ≠ content := by
      obtain ⟨only, honly, -⟩ := List.map_eq_singleton_iff.1 (fields_of_content hcontent hkind)
      rw [honly, List.mem_singleton] at hfield hother
      exact absurd (by rw [hfield, hother]) hname
    have hinner : place.inner (before ++ (field.name, value) :: after) = place.inner (before ++ after) :=
      inner_eq_of_contentFirst (contentFirst_insert htag hcontent)
    rw [only?_insert_of_ne hname, hinner]
    exact rel_only? rfl fun _ _ => rfl

end Place

end ComponentTemplates
