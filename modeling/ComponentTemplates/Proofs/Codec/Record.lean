/-
Module: ComponentTemplates.Proofs.Codec.Record
Purpose: The readers of records and of forms with cases, seen as one reader: it takes the value apart
  (`Place.record?`) and makes something of the fields (`Form.build`).
Main exports: Form.decode_eq
-/
import ComponentTemplates.Proofs.Codec.Form

namespace ComponentTemplates

open Json

/-! ## Fields in objects and arrays -/

/-- The record has the same fields as a reader of records finds. -/
structure Record.Holds (record : Record) (place : Place) {json : Json}
    (field : String → Option (Part json)) : Prop where
  kind : record.kind = none
  passage : record.passage = place.held
  part : ∀ known ∈ place.form.fields none, record.part known.name = (field known.name).map (·.1)

namespace Place

variable {place : Place}

/-- A plain record is an object that has each field at most once. -/
theorem record?_object (hplain : place.form.isPlain = true) (members : List (String × Json)) :
    place.record? (.object members) =
      if (place.form.fields none).all fun field => (only? members field.name).isSome then
        some { kind := none, passage := place.held, part := part? members }
      else none := by
  obtain ⟨form, passage⟩ := place
  cases form with
  | step | lookup | branch | children | guarded | given | production | config =>
      simp [record?, kind?, copies, inner, contentFirst, Form.tag?, Form.content?]
  | _ => cases hplain

/-- A plain record may be an array with at most as many items as there are fields. -/
theorem record?_array (hplain : place.form.isPlain = true) (hguarded : place.form ≠ .guarded)
    (items : List Json) :
    place.record? (.array items) =
      if items.length ≤ (place.form.names none).length then
        some {
          kind := none
          passage := place.held
          part := fun name => items[(place.form.names none).idxOf name]? }
      else none := by
  obtain ⟨form, passage⟩ := place
  cases form with
  | step | lookup | branch | children | given | production | config =>
      simp [record?, kindOf?, admits, Form.tag?]
  | guarded => exact absurd rfl hguarded
  | _ => cases hplain

/-- The names of a plain record are those of its fields. -/
theorem names_of_isPlain (hplain : place.form.isPlain = true) :
    place.form.names none = (place.form.fields none).map Field.name := by
  obtain ⟨form, passage⟩ := place
  cases form with
  | step | lookup | branch | children | guarded | given | production | config => rfl
  | _ => cases hplain

/-- A plain record holds what the decoders' field reader finds in the object. -/
theorem holds_object (place : Place) (hplain : place.form.isPlain = true)
    (members : List (String × Json)) :
    Option.Rel (fun record field => Record.Holds record place field)
      (place.record? (.object members)) ((Json.object members).fields? (place.form.names none)) := by
  rw [record?_object hplain, names_of_isPlain hplain, fields?]
  simp only [List.all_map, Function.comp_def, isSome_only?]
  split
  · rename_i hsingle
    refine .some ⟨rfl, rfl, ?_⟩
    intro known hknown
    refine (head?_of_only? ?_).symm
    rw [isSome_only?]
    exact List.all_eq_true.1 hsingle known hknown
  · exact .none

/-- A record has the fields that its names give in an object or array. -/
theorem holds_fields (place : Place) (hplain : place.form.isPlain = true)
    (hguarded : place.form ≠ .guarded) (json : Json) :
    Option.Rel (fun record field => Record.Holds record place field)
      (place.record? json) (json.fields? (place.form.names none)) := by
  cases json with
  | object members => exact holds_object place hplain members
  | array items =>
      rw [record?_array hplain hguarded, fields?]
      split
      · refine .some ⟨rfl, rfl, ?_⟩
        intro known _
        rw [← List.getElem?_map, map_parts]
      · exact .none
  | null | bool | number | string | invalid => exact .none

/-- What a branch of an attribute's value holds, which is no array. -/
theorem holds_branchFields (passage : Passage) (json : Json) :
    Option.Rel (fun record field => Record.Holds record ⟨.guarded, passage⟩ field)
      (record? ⟨.guarded, passage⟩ json) (branchFields? json) := by
  cases json with
  | object members => exact holds_object ⟨.guarded, passage⟩ rfl members
  | null | bool | number | string | array | invalid => exact .none

end Place

theorem bind_eq_of_rel {α β γ : Type} {rel : α → β → Prop} {left : Option α} {right : Option β}
    {next : α → Option γ} {next' : β → Option γ} (h : Option.Rel rel left right)
    (hnext : ∀ value value', rel value value' → next value = next' value') :
    left.bind next = right.bind next' := by
  cases h with
  | none => rfl
  | some hvalue => exact hnext _ _ hvalue

section Reading

variable {record : Record} {name : String} {form : Form} {json : Json} {part : Option (Part json)}

/-- Reading a required field is reading its value. -/
theorem read_required (h : record.part name = part.map (·.1)) :
    record.read ⟨name, form, .required⟩ =
      part.bind fun part => form.decode record.passage part.1 := by
  simp only [Record.read, Field.read, h]
  cases part <;> rfl

/-- Reading a field with a default is the decoders' reading with that default. -/
theorem read_defaulted {default : form.Value} (h : record.part name = part.map (·.1)) :
    record.read ⟨name, form, .defaulted default⟩ =
      decodeOr default part fun part => form.decode record.passage part.1 := by
  simp only [Record.read, Field.read, h]
  cases part <;> rfl

/-- Reading an optional field is the decoders' reading of a value that may be null. -/
theorem read_optional (h : record.part name = part.map (·.1)) :
    record.read ⟨name, form, .optional⟩ =
      decodeOr none part fun part => decodeNullable part.1 (form.decode record.passage) := by
  simp only [Record.read, Field.read, h]
  cases part <;> rfl

end Reading

/-- A step is read field by field as its form says. -/
theorem decodeStep_eq (passage : Passage) (json : Json) :
    decodeStep json = (Place.record? ⟨.step, passage⟩ json).bind (Form.build .step) := by
  symm
  refine bind_eq_of_rel (Place.holds_fields ⟨.step, passage⟩ rfl nofun json) ?_
  rintro record field ⟨-, -, hparts⟩
  simp only [Form.fields, List.forall_mem_cons] at hparts
  obtain ⟨hname, hargs, -⟩ := hparts
  rw [Form.build, read_required hname, read_defaulted hargs]
  simp only [Option.bind_eq_bind, Option.bind_assoc]
  rfl

theorem decodeLookup_eq (passage : Passage) (json : Json) :
    decodeLookup passage json = (Place.record? ⟨.lookup, passage⟩ json).bind (Form.build .lookup) := by
  symm
  refine bind_eq_of_rel (Place.holds_fields ⟨.lookup, passage⟩ rfl nofun json) ?_
  rintro record field ⟨-, hpassage, hparts⟩
  simp only [Form.fields, List.forall_mem_cons] at hparts
  obtain ⟨hsteps, hmode, -⟩ := hparts
  rw [Form.build, read_required hsteps, read_defaulted hmode, hpassage]
  simp only [Option.bind_eq_bind, Option.bind_assoc]
  rfl

theorem decodeBranch_eq (passage : Passage) (json : Json) :
    decodeBranch json = (Place.record? ⟨.branch, passage⟩ json).bind (Form.build .branch) := by
  rw [decodeBranch]
  symm
  refine bind_eq_of_rel (Place.holds_fields ⟨.branch, passage⟩ rfl nofun json) ?_
  rintro record field ⟨-, hpassage, hparts⟩
  simp only [Form.fields, List.forall_mem_cons] at hparts
  obtain ⟨hcondition, hbody, -⟩ := hparts
  rw [Form.build, read_required hcondition, read_required hbody, hpassage]
  simp only [Option.bind_eq_bind, Option.bind_assoc]
  rfl

theorem decodeChildren_eq (passage : Passage) (json : Json) :
    decodeChildren passage json =
      (Place.record? ⟨.children, passage⟩ json).bind (Form.build .children) := by
  symm
  refine bind_eq_of_rel (Place.holds_fields ⟨.children, passage⟩ rfl nofun json) ?_
  rintro record field ⟨-, hpassage, hparts⟩
  simp only [Form.fields, List.forall_mem_cons] at hparts
  obtain ⟨hstatements, -⟩ := hparts
  rw [Form.build, read_required hstatements, hpassage]
  rfl

theorem decodeGuarded_eq (passage : Passage) (json : Json) :
    decodeGuarded passage json =
      (Place.record? ⟨.guarded, passage⟩ json).bind (Form.build .guarded) := by
  symm
  refine bind_eq_of_rel (Place.holds_branchFields passage json) ?_
  rintro record field ⟨-, hpassage, hparts⟩
  simp only [Form.fields, List.forall_mem_cons] at hparts
  obtain ⟨hguard, hbody, -⟩ := hparts
  rw [Form.build, read_optional hguard, read_required hbody, hpassage]
  simp only [Option.bind_eq_bind, Option.bind_assoc]
  rfl

theorem decodeAttribute_eq (passage : Passage) (json : Json) :
    decodeAttribute passage json =
      (Place.record? ⟨.given, passage⟩ json).bind (Form.build .given) := by
  symm
  refine bind_eq_of_rel (Place.holds_fields ⟨.given, passage⟩ rfl nofun json) ?_
  rintro record field ⟨-, hpassage, hparts⟩
  simp only [Form.fields, List.forall_mem_cons] at hparts
  obtain ⟨hname, hvalue, hline, -⟩ := hparts
  rw [Form.build, read_required hname, read_defaulted hvalue, read_optional hline, hpassage]
  simp only [Option.bind_eq_bind, Option.bind_assoc]
  rfl

theorem decodeProduction_eq (passage : Passage) (json : Json) :
    decodeProduction passage json =
      (Place.record? ⟨.production, passage⟩ json).bind (Form.build .production) := by
  symm
  refine bind_eq_of_rel (Place.holds_fields ⟨.production, passage⟩ rfl nofun json) ?_
  rintro record field ⟨-, hpassage, hparts⟩
  simp only [Form.fields, List.forall_mem_cons] at hparts
  obtain ⟨hname, hattributes, hchildren, hline, -⟩ := hparts
  rw [Form.build, read_required hname, read_defaulted hattributes, read_optional hchildren,
    read_optional hline, hpassage]
  simp only [Option.bind_eq_bind, Option.bind_assoc]
  rfl

theorem decodeConfig_eq (passage : Passage) (json : Json) :
    decodeConfig json = (Place.record? ⟨.config, passage⟩ json).bind (Form.build .config) := by
  symm
  refine bind_eq_of_rel (Place.holds_fields ⟨.config, passage⟩ rfl nofun json) ?_
  rintro record field ⟨-, -, hparts⟩
  simp only [Form.fields, List.forall_mem_cons] at hparts
  obtain ⟨hpaths, -⟩ := hparts
  rw [Form.build, read_defaulted hpaths]
  rfl

/-! ## Cases with their content -/

/-- The form has several cases, told under `kind`, and each keeps its content apart from that tag. -/
structure Form.KeepsApart (form : Form) (names : List String) (content : String) : Prop where
  tag : form.tag? = some ⟨"kind", false, names⟩
  apart : form.content? = some content
  ne : "kind" ≠ content
  /-- The content is the only field of each case. -/
  fields : ∀ kind ∈ names, (form.fields (some kind)).map Field.name = [content]

namespace Form

theorem keepsApart_target : Form.target.KeepsApart targetNames "name" :=
  ⟨rfl, rfl, by decide, by simp [targetNames, fields, targetFields]⟩

theorem keepsApart_expr : Form.expr.KeepsApart exprNames "value" :=
  ⟨rfl, rfl, by decide, by simp [exprNames, fields, exprFields]⟩

theorem keepsApart_fragment : Form.fragment.KeepsApart fragmentNames "value" :=
  ⟨rfl, rfl, by decide, by simp [fragmentNames, fields, fragmentFields]⟩

/-- Every form with a content field keeps its tag and its content apart. -/
theorem keepsApart_of_content {form : Form} {content : String} (hcontent : form.content? = some content) :
    ∃ names, form.KeepsApart names content := by
  cases form with
  | target =>
      cases hcontent
      exact ⟨_, keepsApart_target⟩
  | expr =>
      cases hcontent
      exact ⟨_, keepsApart_expr⟩
  | fragment =>
      cases hcontent
      exact ⟨_, keepsApart_fragment⟩
  | _ => cases hcontent

end Form

/-- The record is the case that a reader of tagged forms finds. -/
structure Record.Tagged (record : Record) (content : String) {json : Json}
    (found : String × Option (Part json) × Passage) : Prop where
  kind : record.kind = some found.1
  passage : record.passage = found.2.2
  part : record.part content = found.2.1.map (·.1)

section Tagged

variable {place : Place} {names : List String} {content : String}

theorem mem_of_decode_tag {alone : Bool} {passage : Passage} {json : Json} {kind : String}
    (h : (Form.tag alone names).decode passage json = some kind) : kind ∈ names := by
  cases alone <;> simpa using (Option.filter_eq_some_iff.1 h).2

/-- An object that tells its case once, and has its content at most once. -/
theorem Place.record?_tagged (hform : place.form.KeepsApart names content)
    (members : List (String × Json)) :
    place.record? (.object members) =
      ((part? members "kind").bind ((Form.tag false names).decode place.passage)).bind fun kind =>
        if place.copies members && (only? members content).isSome then
          some { kind := some kind, passage := place.inner members, part := part? members }
        else none := by
  simp only [record?, kind?, hform.tag]
  cases hkind : (part? members "kind").bind ((Form.tag false names).decode place.passage) with
  | none => rfl
  | some kind =>
      obtain ⟨tag, -, hdecode⟩ := Option.bind_eq_some_iff.1 hkind
      obtain ⟨field, hfield, hname⟩ :=
        List.map_eq_singleton_iff.1 (hform.fields kind (mem_of_decode_tag hdecode))
      simp [hfield, hname]

/-- A record with a content field holds its parts in its own passage. -/
theorem Place.held_of_content (hcontent : place.form.content? = some content) :
    place.held = place.passage := by
  obtain ⟨form, passage⟩ := place
  cases form with
  | statement | branch => cases hcontent
  | _ => rfl

/-- A record that is found by its tag is the one that the decoders find by it. -/
theorem tagged_of_decode {json : Json} {decode : Option String}
    {record : String → Record} {found : String → String × Option (Part json) × Passage}
    (hfound : ∀ kind, (found kind).1 = kind) (h : ∀ kind, Record.Tagged (record kind) content (found kind)) :
    Option.Rel (fun record found => Record.Tagged record content found)
      ((decode.filter names.contains).bind fun kind => some (record kind))
      ((decode.map found).filter fun found => names.contains found.1) := by
  cases decode with
  | none => exact .none
  | some kind =>
      rw [Option.map_some, Option.filter_some, Option.filter_some, hfound]
      split
      · exact .some (h kind)
      · exact .none

/-- An object with a tag and a content is found as the decoders find it. -/
theorem Place.tagged_object (hform : place.form.KeepsApart names content)
    (members : List (String × Json)) :
    Option.Rel (fun record found => Record.Tagged record content found)
      (place.record? (.object members))
      (((Json.object members).tagged? place.passage "kind" content names).filter fun found =>
        names.contains found.1) := by
  rw [record?_tagged hform]
  simp only [copies, inner, contentFirst, hform.apart, held_of_content hform.apart, tagged?, only?_eq]
  rcases htags : named members "kind" with _ | ⟨tag, _ | ⟨second, rest⟩⟩
  · simp only [part?_eq, htags]
    exact .none
  · have hkind : part? members "kind" = some tag.1 := by rw [part?_eq, htags]
    rcases hcontents : named members content with _ | ⟨value, _ | ⟨second, rest⟩⟩
    · have hpart : part? members content = none := by rw [part?_eq, hcontents]
      have honly : only? members content = some none := by simp [only?_eq, hcontents]
      have hfirst := precedes_of_missing (mem_names_of_part? hkind) (not_mem_of_only? honly)
      rw [hkind, hfirst]
      exact tagged_of_decode (fun _ => rfl) fun kind => ⟨rfl, rfl, hpart⟩
    · have hpart : part? members content = some value.1 := by rw [part?_eq, hcontents]
      rw [hkind]
      cases precedes members "kind" content with
      | true => exact tagged_of_decode (fun _ => rfl) fun kind => ⟨rfl, rfl, hpart⟩
      | false =>
          rw [hpart, Option.all_some]
          by_cases hreadable : value.1.readable = true
          · simp only [hreadable, if_true]
            exact tagged_of_decode (fun _ => rfl) fun kind => ⟨rfl, rfl, hpart⟩
          · simp [hreadable]
    · simp
  · simp only [part?_eq, htags]
    exact .none

/-- An array with a tag and a content is a pair. -/
theorem Place.record?_pair (hform : place.form.KeepsApart names content)
    (items : List Json) :
    place.record? (.array items) =
      (items.head?.bind ((Form.tag true names).decode place.passage)).bind fun kind =>
        if items.length = 2 then
          some {
            kind := some kind
            passage := place.passage
            part := fun name => items[["kind", content].idxOf name]? }
        else none := by
  have hadmits : ∀ count, place.admits items count = decide (items.length = count) := by
    have hcontent := hform.apart
    obtain ⟨form, passage⟩ := place
    cases form with
    | target | expr | fragment => exact fun _ => rfl
    | _ => cases hcontent
  simp only [record?, kindOf?, hadmits, held_of_content hform.apart, hform.tag]
  cases hkind : items.head?.bind ((Form.tag true names).decode place.passage) with
  | none => rfl
  | some kind =>
      obtain ⟨tag, -, hdecode⟩ := Option.bind_eq_some_iff.1 hkind
      have hnames : place.form.names (some kind) = ["kind", content] := by
        rw [Form.names, hform.tag, hform.fields kind (mem_of_decode_tag hdecode)]
        rfl
      simp [hnames]

theorem Place.tagged_array (hform : place.form.KeepsApart names content)
    (items : List Json) :
    Option.Rel (fun record found => Record.Tagged record content found)
      (place.record? (.array items))
      (((Json.array items).tagged? place.passage "kind" content names).filter fun found =>
        names.contains found.1) := by
  have hplace : ["kind", content].idxOf content = 1 := by simp [hform.ne]
  rw [record?_pair hform]
  match items with
  | [] => exact .none
  | [_] =>
      simp [tagged?, parts]
  | [tag, value] =>
      refine tagged_of_decode (fun _ => rfl) fun kind => ⟨rfl, rfl, ?_⟩
      simp [hplace]
  | _ :: _ :: _ :: _ =>
      simp [tagged?, parts]

/-- A form whose cases keep their content apart is read like a tagged form. -/
theorem Place.tagged_record (hform : place.form.KeepsApart names content)
    (json : Json) :
    Option.Rel (fun record found => Record.Tagged record content found) (place.record? json)
      ((json.tagged? place.passage "kind" content names).filter fun found =>
        names.contains found.1) := by
  cases json with
  | object members => exact tagged_object hform members
  | array items => exact tagged_array hform items
  | null | bool | number | string | invalid => exact .none

/-- Either there is no record and no case that is known, or both are found. -/
theorem Place.tagged_cases (hform : place.form.KeepsApart names content)
    (json : Json) :
    (place.record? json = none ∧
      ∀ kind part inner, json.tagged? place.passage "kind" content names = some (kind, part, inner) →
        kind ∉ names) ∨
    ∃ record kind part inner, place.record? json = some record ∧
      json.tagged? place.passage "kind" content names = some (kind, part, inner) ∧ kind ∈ names ∧
      record.kind = some kind ∧ record.passage = inner ∧ record.part content = part.map (·.1) := by
  have hrecord := tagged_record hform json
  generalize place.record? json = record? at hrecord ⊢
  cases hfound : json.tagged? place.passage "kind" content names with
  | none =>
      rw [hfound] at hrecord
      cases hrecord
      exact .inl ⟨rfl, nofun⟩
  | some found =>
      obtain ⟨kind, part, inner⟩ := found
      rw [hfound, Option.filter_some] at hrecord
      by_cases hkind : kind ∈ names
      · rw [if_pos (by simpa using hkind)] at hrecord
        cases hrecord with
        | some h => exact .inr ⟨_, kind, part, inner, rfl, rfl, hkind, h.kind, h.passage, h.part⟩
      · rw [if_neg (by simpa using hkind)] at hrecord
        cases hrecord
        refine .inl ⟨rfl, ?_⟩
        rintro _ _ _ ⟨⟩
        exact hkind

end Tagged

/-- A target is read by tag and content as its form says. -/
theorem decodeTarget_eq (passage : Passage) (json : Json) :
    decodeTarget passage json =
      (Place.record? ⟨.target, passage⟩ json).bind (Form.build .target) := by
  rcases @Place.tagged_cases ⟨.target, passage⟩ _ _ Form.keepsApart_target json with
    ⟨hnone, hother⟩ | ⟨record, kind, part, inner, hrecord, hfound, hkind, hcase, rfl, hpart⟩
  · rw [hnone, decodeTarget]
    split
    all_goals
      first
      | rfl
      | rename_i hfound
        exact absurd (by decide) (hother _ _ _ hfound)
  · rw [hrecord, decodeTarget, hfound, Option.bind_some, Form.build, hcase]
    simp only [targetNames, List.mem_cons, List.not_mem_nil, or_false] at hkind
    rcases hkind with rfl | rfl | rfl
    · simp only [read_defaulted hpart]
      rcases part with _ | ⟨value, _⟩
      · rfl
      · cases value with
        | object members => cases members <;> rfl
        | _ => rfl
    · simp only [read_required hpart]
      cases part <;> rfl
    · simp only [read_defaulted hpart]
      rcases part with _ | ⟨value, _⟩
      · rfl
      · cases value with
        | object members => cases members <;> rfl
        | _ => rfl

theorem decodeExpr_eq (passage : Passage) (json : Json) :
    decodeExpr passage json = (Place.record? ⟨.expr, passage⟩ json).bind (Form.build .expr) := by
  rcases @Place.tagged_cases ⟨.expr, passage⟩ _ _ Form.keepsApart_expr json with
    ⟨hnone, hother⟩ | ⟨record, kind, part, inner, hrecord, hfound, hkind, hcase, rfl, hpart⟩
  · rw [hnone, decodeExpr]
    split
    all_goals
      first
      | rfl
      | rename_i hfound
        exact absurd (by decide) (hother _ _ _ hfound)
  · rw [hrecord, decodeExpr, hfound, Option.bind_some, Form.build, hcase]
    simp only [exprNames, List.mem_cons, List.not_mem_nil, or_false] at hkind
    rcases hkind with rfl | rfl
    all_goals
      simp only [read_required hpart]
      cases part <;> rfl

theorem decodeFragment_eq (passage : Passage) (json : Json) :
    decodeFragment passage json =
      (Place.record? ⟨.fragment, passage⟩ json).bind (Form.build .fragment) := by
  rcases @Place.tagged_cases ⟨.fragment, passage⟩ _ _ Form.keepsApart_fragment json with
    ⟨hnone, hother⟩ | ⟨record, kind, part, inner, hrecord, hfound, hkind, hcase, rfl, hpart⟩
  · rw [hnone, decodeFragment]
    split
    all_goals
      first
      | rfl
      | rename_i hfound
        exact absurd (by decide) (hother _ _ _ hfound)
  · rw [hrecord, decodeFragment, hfound, Option.bind_some, Form.build, hcase]
    simp only [fragmentNames, List.mem_cons, List.not_mem_nil, or_false] at hkind
    rcases hkind with rfl | rfl | rfl | rfl
    · simp only [read_required hpart]
      cases part <;> rfl
    · simp only [read_required hpart]
      cases part <;> rfl
    · simp only [read_required hpart]
      cases part with
      | none => rfl
      | some part =>
          simp only [Option.bind_some, Form.decode, decodeGuarded, Option.bind_eq_bind, Option.map_bind,
            Function.comp_def]
          rfl
    · simp only [read_required hpart]
      cases part <;> rfl

/-! ## Statements -/

/-- The operation that a statement tells, and its fields. -/
def operationRecord? (passage : Passage) (json : Json) :
    Option (String × (String → Option (Part json))) := do
  let operation ← operation? json
  let name ← (Form.tag true operationNames).decode passage operation
  let field ← json.fields? ("op" :: (Form.operationFields (some name)).map Field.name)
  return (name, field)

/-- The record is the operation that a reader of statements finds. -/
structure Record.Performs (record : Record) {json : Json}
    (found : String × (String → Option (Part json))) : Prop where
  kind : record.kind = some found.1
  passage : record.passage = .copied
  part : ∀ known ∈ Form.operationFields (some found.1),
    record.part known.name = (found.2 known.name).map (·.1)

theorem Json.operation?_object (members : List (String × Json)) :
    operation? (.object members) = part? members "op" := by
  have hpart := part?_eq members "op"
  rcases hnamed : named members "op" with _ | ⟨operation, _ | ⟨other, rest⟩⟩
  all_goals
    rw [hnamed] at hpart
    rw [hpart, operation?, hnamed]

/-- A statement given as an object is found by its operation as the decoders find it. -/
theorem Place.performs_object (passage : Passage) (members : List (String × Json)) :
    Option.Rel (fun record found => Record.Performs record found)
      (Place.record? ⟨.statement, passage⟩ (.object members))
      (if (Json.object members).readable then operationRecord? passage (.object members)
        else none) := by
  by_cases hreadable : (Json.object members).readable = true
  · have hcopies : (Place.mk .statement passage).copies members = true := by
      simpa [copies, Form.content?] using hreadable
    rw [if_pos hreadable, operationRecord?, operation?_object]
    simp only [record?, kind?, Form.tag?, hcopies, Bool.true_and]
    cases hoperation : part? members "op" with
    | none => exact .none
    | some operation =>
        simp only [Option.bind_some, Option.bind_eq_bind]
        cases hname : (Form.tag true operationNames).decode passage operation with
        | none => exact .none
        | some name =>
            have hop : (named members "op").length ≤ 1 := by
              have hsome := Option.isSome_of_mem (Option.join_eq_some_iff.1 hoperation)
              rwa [isSome_only?, decide_eq_true_iff] at hsome
            simp only [Option.map_some, Option.bind_some, fields?, List.all_cons, List.all_map,
              Function.comp_def, hop, decide_true, Bool.true_and, isSome_only?, Form.fields]
            by_cases hsingle : ((Form.operationFields (some name)).all fun field =>
                decide ((named members field.name).length ≤ 1)) = true
            · rw [if_pos hsingle, if_pos hsingle]
              refine .some ⟨rfl, rfl, ?_⟩
              intro known hknown
              refine (head?_of_only? ?_).symm
              rw [isSome_only?]
              exact List.all_eq_true.1 hsingle known hknown
            · rw [if_neg hsingle, if_neg hsingle]
              exact .none
  · have hcopies : (Place.mk .statement passage).copies members = false := by
      simpa [copies, Form.content?] using hreadable
    have hnone : Place.record? ⟨.statement, passage⟩ (.object members) = none := by
      simp [record?, hcopies]
    rw [if_neg hreadable, hnone]
    exact .none

theorem Place.performs_array (passage : Passage) (items : List Json) :
    Option.Rel (fun record found => Record.Performs record found)
      (Place.record? ⟨.statement, passage⟩ (.array items))
      (if (Json.array items).readable then operationRecord? passage (.array items) else none) := by
  by_cases hreadable : (Json.array items).readable = true
  · rw [if_pos hreadable, operationRecord?, operation?]
    simp only [record?, kindOf?, admits, Form.tag?, hreadable, Bool.true_and]
    cases items.head? with
    | none => exact .none
    | some operation =>
        simp only [Option.bind_some, Option.bind_eq_bind]
        cases hname : (Form.tag true operationNames).decode passage operation with
        | none => exact .none
        | some name =>
            have hnames : Form.names .statement (some name) =
                "op" :: (Form.operationFields (some name)).map Field.name := rfl
            simp only [Option.map_some, Option.bind_some, fields?, hnames, decide_eq_true_eq]
            by_cases hlength : items.length ≤
                ("op" :: (Form.operationFields (some name)).map Field.name).length
            · rw [if_pos hlength, if_pos hlength]
              refine .some ⟨rfl, rfl, ?_⟩
              intro known _
              rw [← List.getElem?_map, map_parts]
            · rw [if_neg hlength, if_neg hlength]
              exact .none
  · have hnone : Place.record? ⟨.statement, passage⟩ (.array items) = none := by
      simp [record?, admits, hreadable]
    rw [if_neg hreadable, hnone]
    exact .none

/-- A statement is found by its operation as the decoders find it. -/
theorem Place.performs (passage : Passage) (json : Json) :
    Option.Rel (fun record found => Record.Performs record found)
      (Place.record? ⟨.statement, passage⟩ json)
      (if json.readable then operationRecord? passage json else none) := by
  cases json with
  | object members => exact performs_object passage members
  | array items => exact performs_array passage items
  | null | bool | number | string | invalid =>
      simp only [readable, operationRecord?, operation?]
      exact .none

/-- What the fields of a known operation are read as. -/
theorem decodeStatement_of_fields {passage : Passage} {json operation : Json} {name : String}
    {field : String → Option (Part json)} {record : Record} (hreadable : json.readable = true)
    (hoperation : operation? json = some operation)
    (hname : caseName? passage operationNames operation = some name) (hmem : name ∈ operationNames)
    (hfields : json.fields? ("op" :: (Form.operationFields (some name)).map Field.name) = some field)
    (hrecord : record.Performs (name, field)) :
    decodeStatement passage json = Form.build .statement record := by
  obtain ⟨hkind, hpassage, hparts⟩ := hrecord
  dsimp only at hkind hparts
  rw [decodeStatement, if_pos hreadable, hoperation, Form.build, hkind]
  simp only [Option.bind_eq_bind, Option.bind_some, hname]
  simp only [operationNames, List.mem_cons, List.not_mem_nil, or_false] at hmem
  rcases hmem with rfl | rfl | rfl | rfl | rfl | rfl | rfl | rfl | rfl | rfl
  all_goals
    simp only [Form.operationFields, List.map_cons, List.map_nil, List.forall_mem_cons]
      at hfields hparts
    simp only [hfields, Option.bind_some]
  · rw [read_required hparts.1, read_required hparts.2.1, hpassage]
    simp only [Option.bind_assoc]
    rfl
  · rw [read_required hparts.1, read_optional hparts.2.1, hpassage]
    simp only [Option.bind_assoc]
    rcases field "otherwise" with _ | ⟨value, hvalue⟩
    · rfl
    · cases value with
      | array items =>
          simp only [decodeOr, decodeNullable, Option.bind_map, Function.comp_def]
          rfl
      | _ => rfl
  · rw [read_required hparts.1, read_required hparts.2.1, hpassage]
    simp only [Option.bind_assoc]
    rfl
  · rw [read_required hparts.1, read_required hparts.2.1, hpassage]
    simp only [Option.bind_assoc]
    rfl
  · rfl
  · rw [read_required hparts.1]
    simp only [Option.bind_assoc]
    rfl
  · rw [read_required hparts.1]
    simp only [Option.bind_assoc]
    rfl
  · rfl
  · rfl
  · rw [read_required hparts.1, read_required hparts.2.1, hpassage]
    simp only [Option.bind_assoc]
    rfl

/-- Without the fields of the operation there is no statement. -/
theorem decodeStatement_of_no_fields {passage : Passage} {json operation : Json} {name : String}
    (hoperation : operation? json = some operation)
    (hname : caseName? passage operationNames operation = some name)
    (hfields : name ∈ operationNames →
      json.fields? ("op" :: (Form.operationFields (some name)).map Field.name) = none) :
    decodeStatement passage json = none := by
  rw [decodeStatement]
  split
  · rw [hoperation]
    simp only [Option.bind_eq_bind, Option.bind_some, hname]
    by_cases hmem : name ∈ operationNames
    · have hnone := hfields hmem
      clear hfields
      simp only [operationNames, List.mem_cons, List.not_mem_nil, or_false] at hmem
      rcases hmem with rfl | rfl | rfl | rfl | rfl | rfl | rfl | rfl | rfl | rfl
      all_goals
        simp only [Form.operationFields, List.map_cons, List.map_nil] at hnone
        simp [hnone]
    · simp only [operationNames, List.mem_cons, List.not_mem_nil, or_false, not_or] at hmem
      simp [hmem]
  · rfl

/-- A statement is read by its operation as its form says. -/
theorem decodeStatement_eq (passage : Passage) (json : Json) :
    decodeStatement passage json =
      (Place.record? ⟨.statement, passage⟩ json).bind (Form.build .statement) := by
  have hrecord := Place.performs passage json
  generalize Place.record? ⟨.statement, passage⟩ json = record? at hrecord ⊢
  by_cases hreadable : json.readable = true
  · rw [if_pos hreadable, operationRecord?] at hrecord
    cases hoperation : operation? json with
    | none =>
        rw [hoperation] at hrecord
        cases hrecord
        rw [decodeStatement, hoperation, if_pos hreadable]
        rfl
    | some operation =>
        rw [hoperation] at hrecord
        simp only [Option.bind_eq_bind, Option.bind_some, Form.decode] at hrecord
        cases hname : caseName? passage operationNames operation with
        | none =>
            rw [hname] at hrecord
            cases hrecord
            rw [decodeStatement, hoperation, if_pos hreadable]
            simp only [Option.bind_eq_bind, Option.bind_some, hname]
            rfl
        | some name =>
            rw [hname, Option.filter_some] at hrecord
            by_cases hmem : name ∈ operationNames
            · rw [if_pos (by simpa using hmem), Option.bind_some] at hrecord
              cases hfields : json.fields? ("op" :: (Form.operationFields (some name)).map Field.name) with
              | none =>
                  rw [hfields] at hrecord
                  cases hrecord
                  exact decodeStatement_of_no_fields hoperation hname fun _ => hfields
              | some field =>
                  rw [hfields] at hrecord
                  cases hrecord with
                  | some h => exact decodeStatement_of_fields hreadable hoperation hname hmem hfields h
            · rw [if_neg (by simpa using hmem)] at hrecord
              cases hrecord
              exact decodeStatement_of_no_fields hoperation hname fun h => absurd h hmem
  · rw [if_neg hreadable] at hrecord
    cases hrecord
    rw [decodeStatement, if_neg hreadable]
    rfl

/-! ## Every form with fields -/

namespace Form

/-- A form with fields is read by taking the value apart and making something of the fields. -/
theorem decode_eq {form : Form} (hform : form.isRecord = true) (passage : Passage) (json : Json) :
    form.decode passage json = (Place.record? ⟨form, passage⟩ json).bind form.build := by
  cases form with
  | step => exact decodeStep_eq passage json
  | lookup => exact decodeLookup_eq passage json
  | target => exact decodeTarget_eq passage json
  | expr => exact decodeExpr_eq passage json
  | statement => exact decodeStatement_eq passage json
  | branch => exact decodeBranch_eq passage json
  | children => exact decodeChildren_eq passage json
  | guarded => exact decodeGuarded_eq passage json
  | fragment => exact decodeFragment_eq passage json
  | given => exact decodeAttribute_eq passage json
  | production => exact decodeProduction_eq passage json
  | config => exact decodeConfig_eq passage json
  | other | nothing | text | line | mode | opener | tag | list => cases hform

end Form

end ComponentTemplates
