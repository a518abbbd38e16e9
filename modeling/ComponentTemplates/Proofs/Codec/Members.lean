/-
Module: ComponentTemplates.Proofs.Codec.Members
Purpose: What readers of objects see of the members, when members change places, when the value of one is
  another, and when a member is put in. A member is seen if it is the only one of its name; of two
  members it is seen which one comes first; and of all members it is seen whether they can be read.
Main exports: only?, part?, only?_perm, only?_replace, only?_insert, precedes_insert
-/
import ComponentTemplates.Proofs.Codec.Reading

namespace ComponentTemplates.Json

/-- The values of all members with the name. -/
def valuesOf (members : List (String × Json)) (name : String) : List Json :=
  members.filterMap fun member => if member.1 = name then some member.2 else none

/-- The value of the only member with the name, if there is one; fails if the name is repeated. -/
def only? (members : List (String × Json)) (name : String) : Option (Option Json) :=
  match valuesOf members name with
  | [] => some none
  | [value] => some (some value)
  | _ => none

/-- The value of the only member with the name. -/
def part? (members : List (String × Json)) (name : String) : Option Json :=
  (only? members name).join

variable {members members' before after : List (String × Json)} {name other tag content : String}
  {value value' : Json}

/-! ## Only members -/

theorem valuesOf_append (first second : List (String × Json)) (name : String) :
    valuesOf (first ++ second) name = valuesOf first name ++ valuesOf second name :=
  List.filterMap_append

theorem valuesOf_cons (name other : String) (value : Json) (rest : List (String × Json)) :
    valuesOf ((name, value) :: rest) other =
      (if name = other then [value] else []) ++ valuesOf rest other := by
  unfold valuesOf
  rw [List.filterMap_cons]
  split <;> simp_all

/-- The order of members does not matter to the only value of a name. -/
theorem only?_perm (h : members.Perm members') (name : String) :
    only? members name = only? members' name := by
  have hvalues : (valuesOf members name).Perm (valuesOf members' name) := h.filterMap _
  rw [only?, only?]
  match hfirst : valuesOf members name, hsecond : valuesOf members' name with
  | [], [] => rfl
  | [first], [second] =>
      rw [hfirst, hsecond, List.singleton_perm_singleton] at hvalues
      rw [hvalues]
  | _ :: _ :: _, _ :: _ :: _ => rfl
  | [], _ :: _ => simp [hfirst, hsecond] at hvalues
  | _ :: _, [] => simp [hfirst, hsecond] at hvalues
  | [_], _ :: _ :: _ => simpa [hfirst, hsecond] using hvalues.length_eq
  | _ :: _ :: _, [_] => simpa [hfirst, hsecond] using hvalues.length_eq

/-- Members of other names are seen as before, whatever the value of a member is. -/
theorem only?_replace_of_ne (hne : name ≠ other) :
    only? (before ++ (name, value) :: after) other = only? (before ++ (name, value') :: after) other := by
  simp only [only?, valuesOf_append, valuesOf_cons, if_neg hne]

/-- A member is seen with its value, or is not seen because of others with the same name. -/
theorem only?_replace (before after : List (String × Json)) (name : String) (value value' : Json) :
    (only? (before ++ (name, value) :: after) name = some (some value) ∧
      only? (before ++ (name, value') :: after) name = some (some value')) ∨
    (only? (before ++ (name, value) :: after) name = none ∧
      only? (before ++ (name, value') :: after) name = none) := by
  simp only [only?, valuesOf_append, valuesOf_cons, if_true, List.singleton_append]
  match valuesOf before name, valuesOf after name with
  | [], [] => exact .inl ⟨rfl, rfl⟩
  | [], _ :: _ => exact .inr ⟨rfl, rfl⟩
  | [_], _ => exact .inr ⟨rfl, rfl⟩
  | _ :: _ :: _, _ => exact .inr ⟨rfl, rfl⟩

/-- Members of other names are seen as before when a member is put in. -/
theorem only?_insert_of_ne (hne : name ≠ other) :
    only? (before ++ (name, value) :: after) other = only? (before ++ after) other := by
  simp only [only?, valuesOf_append, valuesOf_cons, if_neg hne, List.nil_append]

theorem valuesOf_eq_nil (h : name ∉ Bindings.names members) : valuesOf members name = [] := by
  unfold valuesOf
  rw [List.filterMap_eq_nil_iff]
  rintro ⟨other, value⟩ hmem
  refine if_neg ?_
  rintro rfl
  exact h (List.mem_map.2 ⟨_, hmem, rfl⟩)

/-- A member with a new name is seen, and without it there is none of its name. -/
theorem only?_insert (hnew : name ∉ Bindings.names (before ++ after)) :
    only? (before ++ (name, value) :: after) name = some (some value) ∧
      only? (before ++ after) name = some none := by
  rw [Bindings.names, List.map_append, List.mem_append, not_or] at hnew
  simp only [only?, valuesOf_append, valuesOf_cons, if_true]
  rw [valuesOf_eq_nil hnew.1, valuesOf_eq_nil hnew.2]
  exact ⟨rfl, rfl⟩

/-- Where a name stands at most once, its only value is the one a lookup finds. -/
theorem part?_of_only? {part : Option Json} (h : only? members name = some part) :
    part? members name = part := by
  rw [part?, h]
  rfl

/-- A name without value is the name of no member. -/
theorem not_mem_of_only? (h : only? members name = some none) : name ∉ Bindings.names members := by
  intro hmem
  obtain ⟨member, hmember, hname⟩ := List.mem_map.1 hmem
  have hvalue : member.2 ∈ valuesOf members name := List.mem_filterMap.2 ⟨_, hmember, if_pos hname⟩
  rw [only?] at h
  split at h
  · rename_i hnone
    rw [hnone] at hvalue
    cases hvalue
  · cases h
  · cases h

theorem mem_of_part? (h : part? members name = some value) : (name, value) ∈ members := by
  have hvalue : value ∈ valuesOf members name := by
    rw [part?, only?] at h
    split at h
    · cases h
    · rename_i found hfound
      obtain rfl : found = value := by simpa using h
      exact hfound ▸ List.mem_singleton_self _
    · cases h
  obtain ⟨⟨other, found⟩, hmem, hfound⟩ := List.mem_filterMap.1 hvalue
  dsimp only at hfound
  split at hfound
  · cases hfound
    subst other
    exact hmem
  · cases hfound

theorem mem_names_of_part? (h : part? members name = some value) : name ∈ Bindings.names members :=
  List.mem_map.2 ⟨_, mem_of_part? h, rfl⟩

/-- The only value of a name is the first one, provided that there is no second. -/
theorem only?_eq (members : List (String × Json)) (name : String) :
    only? members name =
      if (named members name).length ≤ 1 then some ((named members name).head?.map (·.1)) else none := by
  rw [only?, valuesOf, ← map_named]
  match named members name with
  | [] => rfl
  | [_] => rfl
  | _ :: _ :: _ => simp

theorem isSome_only? (members : List (String × Json)) (name : String) :
    (only? members name).isSome = decide ((named members name).length ≤ 1) := by
  rw [only?_eq]
  split <;> simp [*]

/-- Where a name stands at most once, its first value is the one a lookup finds. -/
theorem head?_of_only? {members : List (String × Json)} {name : String}
    (h : (only? members name).isSome = true) :
    (named members name).head?.map (·.1) = part? members name := by
  rw [isSome_only?, decide_eq_true_iff] at h
  rw [part?, only?_eq, if_pos h]
  rfl

/-- A lookup finds a value exactly if the name stands once. -/
theorem part?_eq (members : List (String × Json)) (name : String) :
    part? members name =
      match named members name with
      | [part] => some part.1
      | _ => none := by
  rw [part?, only?_eq]
  match named members name with
  | [] => rfl
  | [_] => rfl
  | _ :: _ :: _ => simp

/-! ## Order -/

theorem precedes_replace :
    precedes (before ++ (name, value) :: after) tag content =
      precedes (before ++ (name, value') :: after) tag content := by
  unfold precedes
  simp only [List.findIdx_append, List.findIdx_cons]

/-- The first member that has one of two names decides which comes first. -/
theorem precedes_cons (hne : tag ≠ content) (name : String) (value : Json)
    (rest : List (String × Json)) :
    precedes ((name, value) :: rest) tag content =
      if name = tag then true else if name = content then false else precedes rest tag content := by
  unfold precedes
  rw [List.findIdx_cons, List.findIdx_cons]
  by_cases htag : name = tag
  · subst htag
    rw [beq_self_eq_true, beq_eq_false_iff_ne.2 hne, cond_true, cond_false, if_pos rfl]
    exact decide_eq_true (Nat.succ_pos _)
  · rw [beq_eq_false_iff_ne.2 htag, cond_false, if_neg htag]
    by_cases hcontent : name = content
    · subst hcontent
      rw [beq_self_eq_true, cond_true, if_pos rfl]
      exact decide_eq_false (Nat.not_lt_zero _)
    · rw [beq_eq_false_iff_ne.2 hcontent, cond_false, if_neg hcontent]
      simp only [Nat.add_lt_add_iff_right]

/-- A tag precedes a content that is missing. -/
theorem precedes_of_missing (htag : tag ∈ Bindings.names members)
    (hcontent : content ∉ Bindings.names members) : precedes members tag content = true := by
  have hne : tag ≠ content := fun heq => hcontent (heq ▸ htag)
  induction members with
  | nil => cases htag
  | cons member rest ih =>
      obtain ⟨name, value⟩ := member
      rw [Bindings.names, List.map_cons, List.mem_cons] at htag hcontent
      rw [not_or] at hcontent
      rw [precedes_cons hne]
      split
      · rfl
      · rename_i hother
        rw [if_neg (Ne.symm hcontent.1)]
        exact ih (htag.resolve_left (Ne.symm hother)) hcontent.2

/-- A member put in does not change which of two others comes first. -/
theorem precedes_insert (hne : tag ≠ content) (htag : name ≠ tag) (hcontent : name ≠ content) :
    precedes (before ++ (name, value) :: after) tag content =
      precedes (before ++ after) tag content := by
  induction before with
  | nil => rw [List.nil_append, precedes_cons hne, if_neg htag, if_neg hcontent, List.nil_append]
  | cons member rest ih =>
      obtain ⟨first, found⟩ := member
      rw [List.cons_append, List.cons_append, precedes_cons hne, precedes_cons hne, ih]

/-! ## Readable members -/

theorem readableMembers_iff :
    readableMembers members = true ↔ ∀ member ∈ members, member.2.readable = true := by
  induction members with
  | nil => simp [readableMembers]
  | cons member rest ih =>
      obtain ⟨name, value⟩ := member
      simp [readableMembers, ih]

theorem readable_object_perm (h : members.Perm members') :
    (Json.object members).readable = (Json.object members').readable := by
  rw [readable, readable, Bool.eq_iff_iff, readableMembers_iff, readableMembers_iff]
  exact forall_congr' fun member => imp_congr_left h.mem_iff

theorem readable_object_replace (h : value.readable = value'.readable) :
    (Json.object (before ++ (name, value) :: after)).readable =
      (Json.object (before ++ (name, value') :: after)).readable := by
  rw [readable, readable, Bool.eq_iff_iff, readableMembers_iff, readableMembers_iff]
  simp only [List.forall_mem_append, List.forall_mem_cons, h]

theorem readable_object_insert (h : value.readable = true) :
    (Json.object (before ++ (name, value) :: after)).readable =
      (Json.object (before ++ after)).readable := by
  rw [readable, readable, Bool.eq_iff_iff, readableMembers_iff, readableMembers_iff]
  simp only [List.forall_mem_append, List.forall_mem_cons, h, true_and]

theorem readable_array_replace {before after : List Json} (h : value.readable = value'.readable) :
    (Json.array (before ++ value :: after)).readable =
      (Json.array (before ++ value' :: after)).readable := by
  rw [readable, readable, Bool.eq_iff_iff, readableItems_iff, readableItems_iff]
  simp only [List.forall_mem_append, List.forall_mem_cons, h]

end ComponentTemplates.Json
