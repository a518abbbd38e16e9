/-
Module: ComponentTemplates.Proofs.Codec.Place
Purpose: The places inside a value, and when two values at a place are read alike. Each member of an object
  and each item of an array stands at a place of its own; values whose parts are read alike are read
  alike, and so are a value and its copy, unless a case is named in it as only a copy may name it.
Main exports: Place.member, Place.item, Place.Loose, Form.decode_object_eq, Form.decode_array_eq,
  Place.decode_copied
-/
import ComponentTemplates.Proofs.Codec.Record

namespace ComponentTemplates

open Json

/-- The form of the field with the name. -/
def fieldForm (fields : List Field) (name : String) : Form :=
  ((fields.find? fun field => field.name = name).map Field.form).getD .other

namespace Place

variable (place : Place)

/-- The fields that an object has by its case, besides its tag. -/
def fields (members : List (String × Json)) : List Field :=
  (place.kind? members).elim [] place.form.fields

/-- The names that an object has a use for. -/
def known (members : List (String × Json)) : List String :=
  (place.form.tag?.map Tag.name).toList ++ (place.fields members).map Field.name

/-- What is expected of the members of an object with the name. -/
def member (members : List (String × Json)) (name : String) : Place :=
  let field : Place := ⟨fieldForm (place.fields members) name, place.inner members⟩
  match place.form.tag? with
  | some tag => if name = tag.name then ⟨.tag tag.alone tag.names, place.passage⟩ else field
  | none => field

/-- What is expected of the items of an array, one after another. -/
def places (items : List Json) : List Place :=
  (place.form.tag?.map fun tag => Place.mk (.tag true tag.names) place.passage).toList ++
    ((place.kindOf? items).elim [] place.form.fields).map fun field => ⟨field.form, place.held⟩

/-- What is expected of an item of an array. -/
def item (items : List Json) (index : Nat) : Place :=
  match place.form with
  | .list item => ⟨item, place.passage⟩
  | _ => (place.places items)[index]?.getD ⟨.other, place.held⟩

/-- A case is named as only a copy may name it: with an empty object behind its name, or by its number. -/
inductive Loose : Place → Json → Prop where
  | hollow {place : Place} (hform : place.form = .mode ∨ place.form = .opener ∨
      ∃ names, place.form = .tag false names) (hpassage : place.passage.allowsEmptyObject = false)
      (name : String) : Loose place (.object [(name, .object [])])
  | ordinal {place : Place} {names : List String} (hform : place.form = .tag true names)
      (hpassage : place.passage.allowsOrdinal = false) (ordinal : Int) :
      Loose place (.number (.integer ordinal))
  | member {place : Place} {members : List (String × Json)} {name : String} {value : Json}
      (hmem : (name, value) ∈ members) (h : Loose (place.member members name) value) :
      Loose place (.object members)
  | item {place : Place} {items : List Json} {index : Nat} {value : Json}
      (hitem : items[index]? = some value) (h : Loose (place.item items index) value) :
      Loose place (.array items)

end Place

/-! ## Fields of a form -/

namespace Form

/-- No form has two fields of one name, or one that is named like its tag. -/
theorem nodup_names (form : Form) (kind : Option String) : (form.names kind).Nodup := by
  cases form with
  | target =>
      simp only [names, tag?, fields, targetFields]
      split <;> simp
  | expr =>
      simp only [names, tag?, fields, exprFields]
      split <;> simp
  | fragment =>
      simp only [names, tag?, fields, fragmentFields]
      split <;> simp
  | statement =>
      simp only [names, tag?, fields, operationFields]
      split <;> simp
  | _ => simp [names, fields, tag?]

theorem nodup_fields (form : Form) (kind : Option String) :
    ((form.fields kind).map Field.name).Nodup :=
  (List.nodup_append.1 (form.nodup_names kind)).2.1

/-- Only a record, or a form with several cases, has fields. -/
theorem isRecord_of_field {form : Form} {kind : Option String} {field : Field}
    (hfield : field ∈ form.fields kind) : form.isRecord = true := by
  cases form with
  | other | nothing | text | line | mode | opener | tag | list => cases hfield
  | _ => rfl

end Form

/-- The form at a field's name is the field's form. -/
theorem fieldForm_of_mem {fields : List Field} (hdistinct : (fields.map Field.name).Nodup)
    {field : Field} (hmem : field ∈ fields) : fieldForm fields field.name = field.form := by
  induction fields with
  | nil => cases hmem
  | cons first rest ih =>
      obtain ⟨hfirst, hrest⟩ := List.nodup_cons.1 hdistinct
      rcases List.mem_cons.1 hmem with rfl | hmem
      · simp [fieldForm]
      · have hne : first.name ≠ field.name :=
          fun heq => hfirst (heq ▸ List.mem_map.2 ⟨field, hmem, rfl⟩)
        rw [← ih hrest hmem, fieldForm, fieldForm, List.find?_cons_of_neg (by simpa using hne)]

/-- In a list without repetitions, the place of an entry leads back to it. -/
theorem getElem?_idxOf_map {α : Type} {entries : List α} {name : α → String}
    (hdistinct : (entries.map name).Nodup) {entry : α} (hmem : entry ∈ entries) :
    entries[(entries.map name).idxOf (name entry)]? = some entry := by
  obtain ⟨index, hindex, rfl⟩ := List.getElem_of_mem hmem
  have hplace := hdistinct.idxOf_getElem index (by simpa using hindex)
  rw [List.getElem_map] at hplace
  rw [hplace, List.getElem?_eq_getElem hindex]

/-! ## Values that are read alike -/

theorem isSome_eq_of_rel {α β : Type} {rel : α → β → Prop} {left : Option α} {right : Option β}
    (h : Option.Rel rel left right) : left.isSome = right.isSome := by
  cases h <;> rfl

theorem rel_only? {α : Type} {read read' : Option Json → α} {members : List (String × Json)} {name : String}
    (hnone : read none = read' none)
    (hsome : ∀ value, part? members name = some value → read (some value) = read' (some value)) :
    Option.Rel (fun part part' => read part = read' part') (only? members name)
      (only? members name) := by
  cases honly : only? members name with
  | none => exact .none
  | some part =>
      refine .some ?_
      cases part with
      | none => exact hnone
      | some value => exact hsome value (part?_of_only? honly)

/-- Two readers that agree on what was seen agree when it is read. -/
theorem read_join_of_rel {α : Type} {read read' : Option Json → α} {seen seen' : Option (Option Json)}
    (h : Option.Rel (fun part part' => read part = read' part') seen seen')
    (hseen : seen.isSome = true) : read seen.join = read' seen'.join := by
  cases h with
  | none => cases hseen
  | some h => exact h

/-- Readers that agree item by item agree on the lists. -/
theorem mapM_eq_of_forall₂ {α β γ : Type} {read : α → Option γ} {read' : β → Option γ} {items : List α}
    {items' : List β} (h : List.Forall₂ (fun item item' => read item = read' item') items items') :
    items.mapM read = items'.mapM read' := by
  induction h with
  | nil => rfl
  | cons hitem _ ih => rw [List.mapM_cons, List.mapM_cons, hitem, ih]

namespace Place

variable {form : Form} {passage passage' : Passage}

/-- The kind of an object depends only on what its tag is read as. -/
theorem kind?_eq_of_tag {members members' : List (String × Json)}
    (h : ∀ tag, form.tag? = some tag →
      (part? members tag.name).bind ((Form.tag tag.alone tag.names).decode passage) =
        (part? members' tag.name).bind ((Form.tag tag.alone tag.names).decode passage')) :
    (Place.mk form passage).kind? members = (Place.mk form passage').kind? members' := by
  unfold kind?
  cases htag : form.tag? with
  | none => rfl
  | some tag => exact congrArg (Option.map some) (h tag htag)

theorem kindOf?_eq_of_tag {items items' : List Json}
    (h : ∀ tag, form.tag? = some tag →
      items.head?.bind ((Form.tag true tag.names).decode passage) =
        items'.head?.bind ((Form.tag true tag.names).decode passage')) :
    (Place.mk form passage).kindOf? items = (Place.mk form passage').kindOf? items' := by
  unfold kindOf?
  cases htag : form.tag? with
  | none => rfl
  | some tag => exact congrArg (Option.map some) (h tag htag)

end Place

namespace Form

variable {form : Form} {passage passage' : Passage}

/-- Objects that tell the same case, and whose fields are read alike, are read alike. -/
theorem decode_object_eq (hform : form.isRecord = true) {members members' : List (String × Json)}
    (hkind : (Place.mk form passage).kind? members = (Place.mk form passage').kind? members')
    (hcopies : ∀ kind, (Place.mk form passage).kind? members = some kind →
      (Place.mk form passage).copies members = (Place.mk form passage').copies members')
    (hfields : ∀ kind, (Place.mk form passage).kind? members = some kind →
      ∀ field ∈ form.fields kind, Option.Rel
        (fun part part' => field.read ((Place.mk form passage).inner members) part =
          field.read ((Place.mk form passage').inner members') part')
        (only? members field.name) (only? members' field.name)) :
    form.decode passage (.object members) = form.decode passage' (.object members') := by
  rw [decode_eq hform, decode_eq hform, Place.record?, Place.record?, ← hkind]
  cases hcase : (Place.mk form passage).kind? members with
  | none => rfl
  | some kind =>
      have hreads := hfields kind hcase
      have hsingle : ((form.fields kind).all fun field => (only? members field.name).isSome) =
          (form.fields kind).all fun field => (only? members' field.name).isSome := by
        rw [Bool.eq_iff_iff, List.all_eq_true, List.all_eq_true]
        refine forall_congr' fun field => forall_congr' fun hfield => ?_
        rw [isSome_eq_of_rel (hreads field hfield)]
      simp only [Option.bind_eq_bind, Option.bind_some, ← hcopies kind hcase, ← hsingle]
      split
      · rename_i hall
        refine build_eq rfl ?_
        intro field hfield
        have hseen := List.all_eq_true.1 (Bool.and_eq_true_iff.1 hall).2 field hfield
        exact read_join_of_rel (hreads field hfield) hseen
      · rfl

/-- Arrays that tell the same case, and whose fields are read alike, are read alike. -/
theorem decode_array_eq (hform : form.isRecord = true) {items items' : List Json}
    (hkind : (Place.mk form passage).kindOf? items = (Place.mk form passage').kindOf? items')
    (hadmits : ∀ count,
      (Place.mk form passage).admits items count = (Place.mk form passage').admits items' count)
    (hfields : ∀ kind, (Place.mk form passage).kindOf? items = some kind →
      ∀ field ∈ form.fields kind,
        field.read (Place.mk form passage).held items[(form.names kind).idxOf field.name]? =
          field.read (Place.mk form passage').held items'[(form.names kind).idxOf field.name]?) :
    form.decode passage (.array items) = form.decode passage' (.array items') := by
  rw [decode_eq hform, decode_eq hform, Place.record?, Place.record?, ← hkind]
  cases hcase : (Place.mk form passage).kindOf? items with
  | none => rfl
  | some kind =>
      simp only [Option.bind_eq_bind, Option.bind_some, ← hadmits]
      split
      · refine build_eq rfl ?_
        exact hfields kind hcase
      · rfl

end Form

/-! ## Copies -/

/-- The passages differ in the case that a value names only on an empty object as content. -/
theorem Json.unitCase?_copied {passage : Passage} {json : Json}
    (h : ∀ name, json = .object [(name, .object [])] → passage.allowsEmptyObject = true) :
    unitCase? passage json = unitCase? .copied json := by
  match json with
  | .object [(name, .object [])] => rw [unitCase?, unitCase?, h name rfl, Passage.allowsEmptyObject]
  | .object [] | .object [(_, .null)] | .object [(_, .bool _)] | .object [(_, .number _)]
  | .object [(_, .string _)] | .object [(_, .array _)] | .object [(_, .invalid)]
  | .object [(_, .object (_ :: _))] => rfl
  | .object (_ :: _ :: _) => simp [unitCase?]
  | .null | .bool _ | .number _ | .string _ | .array _ | .invalid => rfl

/-- The passages differ in the case name only on an ordinal. -/
theorem Json.caseName?_copied {passage : Passage} {json : Json} {names : List String}
    (h : ∀ ordinal, json = .number (.integer ordinal) → passage.allowsOrdinal = true) :
    caseName? passage names json = caseName? .copied names json := by
  match json with
  | .number (.integer ordinal) => rw [caseName?, caseName?, h ordinal rfl, Passage.allowsOrdinal]
  | .number (.real _) => rfl
  | .null | .bool _ | .string _ | .array _ | .object _ | .invalid => rfl

theorem decodeNullable_of_ne {α : Type} {json : Json} (h : json ≠ .null) (decode : Json → Option α) :
    decodeNullable json decode = (decode json).map some := by
  cases json with
  | null => exact absurd rfl h
  | _ => rfl

namespace Field

variable {field : Field} {passage passage' : Passage}

theorem read_none (field : Field) (passage passage' : Passage) :
    field.read passage none = field.read passage' none := by
  obtain ⟨name, form, presence⟩ := field
  cases presence <;> rfl

/-- A field is read alike, if its value is. -/
theorem read_some {value value' : Json} (hnull : value = .null ↔ value' = .null)
    (h : field.form.decode passage value = field.form.decode passage' value') :
    field.read passage (some value) = field.read passage' (some value') := by
  obtain ⟨name, form, presence⟩ := field
  cases presence with
  | required => exact h
  | defaulted default => exact h
  | optional =>
      change decodeNullable value _ = decodeNullable value' _
      by_cases hvalue : value = .null
      · rw [hvalue, hnull.1 hvalue]
        rfl
      · rw [decodeNullable_of_ne hvalue, decodeNullable_of_ne fun heq => hvalue (hnull.2 heq), h]

end Field

namespace Place

/-- The member with the tag's name stands at the tag's place. -/
theorem member_of_tag {place : Place} {tag : Tag} (htag : place.form.tag? = some tag)
    (members : List (String × Json)) :
    place.member members tag.name = ⟨.tag tag.alone tag.names, place.passage⟩ := by
  simp [member, htag]

/-- The member with a field's name stands at the field's form. -/
theorem fieldForm_of_kind {place : Place} {members : List (String × Json)} {kind : Option String}
    (hkind : place.kind? members = some kind) {field : Field} (hfield : field ∈ place.form.fields kind) :
    fieldForm (place.fields members) field.name = field.form := by
  rw [fields, hkind, Option.elim_some]
  exact fieldForm_of_mem (place.form.nodup_fields kind) hfield

/-- No field has the name of the tag. -/
theorem name_ne_tag {form : Form} {tag : Tag} (htag : form.tag? = some tag) {kind : Option String}
    {field : Field} (hfield : field ∈ form.fields kind) : field.name ≠ tag.name := by
  have hdistinct := form.nodup_names kind
  rw [Form.names, htag] at hdistinct
  intro heq
  exact (List.nodup_cons.1 hdistinct).1 (heq ▸ List.mem_map.2 ⟨field, hfield, rfl⟩)

/-- The member with a field's name stands at the field's place. -/
theorem member_of_field {place : Place} {members : List (String × Json)} {kind : Option String}
    (hkind : place.kind? members = some kind) {field : Field} (hfield : field ∈ place.form.fields kind) :
    place.member members field.name = ⟨field.form, place.inner members⟩ := by
  simp only [member, fieldForm_of_kind hkind hfield]
  cases htag : place.form.tag? with
  | none => rfl
  | some tag => exact if_neg (name_ne_tag htag hfield)

/-- An item of a record given as an array stands at the place of its position, or at none. -/
theorem item_eq {place : Place} (hform : place.form.isRecord = true) (items : List Json) (index : Nat) :
    place.item items index = (place.places items)[index]?.getD ⟨.other, place.held⟩ := by
  obtain ⟨form, passage⟩ := place
  cases form with
  | list => cases hform
  | _ => rfl

/-- The first item of an array tells the case. -/
theorem item_of_tag {place : Place} (hform : place.form.isRecord = true) {tag : Tag}
    (htag : place.form.tag? = some tag) (items : List Json) :
    place.item items 0 = ⟨.tag true tag.names, place.passage⟩ := by
  rw [item_eq hform, places, htag]
  rfl

/-- A field is at the place of its name. -/
theorem item_of_field {place : Place} (hform : place.form.isRecord = true) {items : List Json}
    {kind : Option String} (hkind : place.kindOf? items = some kind) {field : Field}
    (hfield : field ∈ place.form.fields kind) :
    place.item items ((place.form.names kind).idxOf field.name) = ⟨field.form, place.held⟩ := by
  have hdistinct := place.form.nodup_names kind
  rw [item_eq hform, places, hkind, Option.elim_some]
  rw [Form.names] at hdistinct ⊢
  cases htag : place.form.tag? with
  | none =>
      rw [htag] at hdistinct
      simp only [Option.map_none, Option.toList_none, List.nil_append, List.getElem?_map] at hdistinct ⊢
      rw [getElem?_idxOf_map hdistinct hfield]
      rfl
  | some tag =>
      rw [htag] at hdistinct
      simp only [Option.map_some, Option.toList_some, List.singleton_append] at hdistinct ⊢
      obtain ⟨hnew, hdistinct⟩ := List.nodup_cons.1 hdistinct
      have hne : tag.name ≠ field.name := fun heq => hnew (heq ▸ List.mem_map.2 ⟨field, hfield, rfl⟩)
      rw [List.idxOf_cons_ne _ hne, List.getElem?_cons_succ, List.getElem?_map,
        getElem?_idxOf_map hdistinct hfield]
      rfl

theorem held_copied (form : Form) : (Place.mk form .copied).held = .copied := by
  simp [held]

theorem inner_copied (form : Form) (members : List (String × Json)) :
    (Place.mk form .copied).inner members = .copied := by
  simp [inner, held]

section Copies

variable {form : Form} {passage : Passage}

/-- An object that is not loose is read the same from a copy, if its members are. -/
theorem decode_copied_object (hform : form.isRecord = true) {members : List (String × Json)}
    (h : ¬ Loose ⟨form, passage⟩ (.object members))
    (ih : ∀ member ∈ members, ∀ form passage, ¬ Loose ⟨form, passage⟩ member.2 →
      form.decode passage member.2 = form.decode .copied member.2) :
    form.decode passage (.object members) = form.decode .copied (.object members) := by
  have hmember : ∀ name value, (name, value) ∈ members →
      ¬ Loose ((Place.mk form passage).member members name) value :=
    fun name value hmem hloose => h (.member hmem hloose)
  have hkind : (Place.mk form passage).kind? members = (Place.mk form .copied).kind? members := by
    refine kind?_eq_of_tag ?_
    intro tag htag
    refine Option.bind_congr ?_
    intro value hvalue
    have hmem := mem_of_part? hvalue
    have hplace := hmember _ _ hmem
    rw [@member_of_tag ⟨form, passage⟩ _ htag] at hplace
    exact ih _ hmem _ _ hplace
  refine Form.decode_object_eq hform hkind (fun _ _ => rfl) ?_
  intro kind hcase field hfield
  rw [inner_copied]
  refine rel_only? (Field.read_none ..) ?_
  intro value hvalue
  have hmem := mem_of_part? hvalue
  have hplace := hmember _ _ hmem
  rw [member_of_field hcase hfield] at hplace
  exact Field.read_some Iff.rfl (ih _ hmem _ _ hplace)

theorem decode_copied_array (hform : form.isRecord = true) {items : List Json}
    (h : ¬ Loose ⟨form, passage⟩ (.array items))
    (ih : ∀ item ∈ items, ∀ form passage, ¬ Loose ⟨form, passage⟩ item →
      form.decode passage item = form.decode .copied item) :
    form.decode passage (.array items) = form.decode .copied (.array items) := by
  have hitem : ∀ index value, items[index]? = some value →
      ¬ Loose ((Place.mk form passage).item items index) value :=
    fun index value hvalue hloose => h (.item hvalue hloose)
  have hkind : (Place.mk form passage).kindOf? items = (Place.mk form .copied).kindOf? items := by
    refine kindOf?_eq_of_tag ?_
    intro tag htag
    refine Option.bind_congr ?_
    intro value hvalue
    have hplace := hitem 0 value (by rw [← List.head?_eq_getElem?, hvalue])
    rw [item_of_tag hform htag] at hplace
    exact ih _ (List.mem_of_mem_head? hvalue) _ _ hplace
  refine Form.decode_array_eq hform hkind (fun _ => rfl) ?_
  intro kind hcase field hfield
  rw [held_copied]
  cases hvalue : items[(form.names kind).idxOf field.name]? with
  | none => exact Field.read_none ..
  | some value =>
      have hplace := hitem _ _ hvalue
      rw [@item_of_field ⟨form, passage⟩ hform _ _ hcase _ hfield] at hplace
      exact Field.read_some Iff.rfl (ih _ (List.mem_of_getElem? hvalue) _ _ hplace)

/-- Items that are read alike make lists that are read alike. -/
theorem decode_list_copied {items : List Json} (h : ¬ Loose ⟨.list form, passage⟩ (.array items))
    (ih : ∀ item ∈ items, ∀ form passage, ¬ Loose ⟨form, passage⟩ item →
      form.decode passage item = form.decode .copied item) :
    (Form.list form).decode passage (.array items) =
      (Form.list form).decode .copied (.array items) := by
  rw [Form.decode, Form.decode, items?_array, items?_array]
  refine mapM_eq_of_forall₂ (List.forall₂_same.2 ?_)
  intro item hmem
  obtain ⟨index, hindex⟩ := List.mem_iff_getElem?.1 hmem
  exact ih item hmem _ _ fun hloose => h (.item hindex hloose)

/-- In a value that has no fields and no items, only a case may be named differently in a copy. -/
theorem decode_copied_leaf (hform : form.isRecord = false) (hlist : ∀ item, form ≠ .list item) {json : Json}
    (h : ¬ Loose ⟨form, passage⟩ json) : form.decode passage json = form.decode .copied json := by
  have hcase (hhollow : form = .mode ∨ form = .opener ∨ ∃ names, form = .tag false names) :
      unitCase? passage json = unitCase? .copied json := by
    refine unitCase?_copied ?_
    rintro name rfl
    by_contra hpassage
    exact h (.hollow hhollow (Bool.eq_false_iff.2 hpassage) name)
  cases form with
  | other | nothing | text | line => rfl
  | mode => simp only [Form.decode, decodeMode, hcase (.inl rfl)]
  | opener => simp only [Form.decode, decodeOpener, hcase (.inr (.inl rfl))]
  | tag alone names =>
      cases alone with
      | false => simp only [Form.decode, hcase (.inr (.inr ⟨names, rfl⟩))]
      | true =>
          have hname : caseName? passage names json = caseName? .copied names json := by
            refine caseName?_copied ?_
            rintro ordinal rfl
            by_contra hpassage
            exact h (.ordinal rfl (Bool.eq_false_iff.2 hpassage) ordinal)
          simp only [Form.decode, hname]
  | list item => exact absurd rfl (hlist item)
  | _ => cases hform

/-- A value that is not loose is read the same from a copy, if its parts are. -/
theorem decode_copied_of_parts {json : Json} (h : ¬ Loose ⟨form, passage⟩ json)
    (ih : ∀ part, sizeOf part < sizeOf json → ∀ form passage, ¬ Loose ⟨form, passage⟩ part →
      form.decode passage part = form.decode .copied part) :
    form.decode passage json = form.decode .copied json := by
  by_cases hform : form.isRecord = true
  · cases json with
    | object members =>
        exact decode_copied_object hform h fun _ hmem => ih _ (sizeOf_lt_of_mem_members hmem)
    | array items =>
        exact decode_copied_array hform h fun _ hmem => ih _ (sizeOf_lt_of_mem_items hmem)
    | null | bool | number | string | invalid =>
        rw [Form.decode_eq hform, Form.decode_eq hform]
        rfl
  · by_cases hlist : ∃ item, form = .list item
    · obtain ⟨item, rfl⟩ := hlist
      cases json with
      | array items => exact decode_list_copied h fun _ hmem => ih _ (sizeOf_lt_of_mem_items hmem)
      | null | bool | number | string | object | invalid => rfl
    · exact decode_copied_leaf (Bool.eq_false_iff.2 hform) (fun item hitem => hlist ⟨item, hitem⟩) h

end Copies

/-- A value is read alike from a copy, unless a case is named in it as only a copy may name it. -/
theorem decode_copied (form : Form) (passage : Passage) (json : Json)
    (h : ¬ Loose ⟨form, passage⟩ json) : form.decode passage json = form.decode .copied json :=
  decode_copied_of_parts h fun part _ form passage hpart => decode_copied form passage part hpart
termination_by sizeOf json

end Place

end ComponentTemplates
