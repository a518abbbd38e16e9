/-
Module: ComponentTemplates.Proofs.Bindings
Purpose: Bindings as tables over their names. Binding pairs one after another gives one binding for each
  name that occurs, in order of first occurrence, with the value that comes last (`ofList_eq_map`).
  Tables with the same names and related values stay so, whatever is bound (`Related.insert`).
Main exports: get?_perm, insert_of_not_contains, insert_insert, insert_of_get?, exists_place_of_get?,
  lastValue?, ofList_eq_map, Related, Related.get?, Related.insert
-/
import ComponentTemplates.Bindings
import Mathlib.Data.List.Forall2
import Mathlib.Data.List.Induction

namespace ComponentTemplates.Bindings

variable {α : Type}

/-- The bindings of the first list hide those of the second. -/
theorem get?_append (first second : Bindings α) (name : String) :
    get? (first ++ second) name = (get? first name).or (get? second name) := by
  induction first with
  | nil => rfl
  | cons pair rest ih =>
      obtain ⟨other, value⟩ := pair
      by_cases hname : other = name
      · simp [get?_cons, hname]
      · simp [get?_cons, hname, ih]

/-- What a lookup finds is one of the pairs. -/
theorem mem_of_get? {bindings : Bindings α} {name : String} {value : α}
    (h : get? bindings name = some value) : (name, value) ∈ bindings := by
  induction bindings with
  | nil => cases h
  | cons pair rest ih =>
      obtain ⟨other, first⟩ := pair
      rw [get?_cons] at h
      by_cases hname : other = name
      · rw [if_pos hname] at h
        rw [hname, Option.some.inj h]
        exact List.mem_cons_self ..
      · rw [if_neg hname] at h
        exact List.mem_cons_of_mem _ (ih h)

/-- In a table that binds no name twice every entry is found. -/
theorem get?_of_mem {bindings : Bindings α} (hdistinct : (names bindings).Nodup) {name : String}
    {value : α} (hmem : (name, value) ∈ bindings) : get? bindings name = some value := by
  induction bindings with
  | nil => cases hmem
  | cons pair rest ih =>
      obtain ⟨other, first⟩ := pair
      obtain ⟨hother, hrest⟩ := List.nodup_cons.1 hdistinct
      rw [get?_cons]
      rcases List.mem_cons.1 hmem with heq | hmem
      · cases heq
        exact if_pos rfl
      · have hne : other ≠ name := by
          rintro rfl
          exact hother (List.mem_map.2 ⟨(other, value), hmem, rfl⟩)
        rw [if_neg hne, ih hrest hmem]

/-- The order of the entries makes no difference to what is found, if no name is bound twice. -/
theorem get?_perm {bindings other : Bindings α} (hperm : bindings.Perm other)
    (hdistinct : (names bindings).Nodup) (name : String) :
    get? bindings name = get? other name := by
  have hother : (names other).Nodup := (hperm.map _).nodup_iff.1 hdistinct
  apply Option.ext
  intro value
  constructor
  · intro h
    exact get?_of_mem hother (hperm.mem_iff.1 (mem_of_get? h))
  · intro h
    exact get?_of_mem hdistinct (hperm.mem_iff.2 (mem_of_get? h))

theorem contains_iff_mem_names (bindings : Bindings α) (name : String) :
    contains bindings name = true ↔ name ∈ names bindings := by
  induction bindings with
  | nil => simp [contains, names]
  | cons pair rest ih =>
      obtain ⟨other, value⟩ := pair
      by_cases hname : other = name
      · simp [contains, names, get?_cons, hname]
      · have hother : name ≠ other := fun heq => hname heq.symm
        simpa [contains, names, get?_cons, hname, hother] using ih

/-- A name that is new is bound behind the others. -/
theorem insert_of_not_contains {bindings : Bindings α} {name : String}
    (hnew : contains bindings name = false) (value : α) :
    insert bindings name value = bindings ++ [(name, value)] := by
  induction bindings with
  | nil => rfl
  | cons pair rest ih =>
      obtain ⟨other, old⟩ := pair
      by_cases hname : other = name
      · simp [contains, get?_cons, hname] at hnew
      · have hrest : contains rest name = false := by
          simpa [contains, get?_cons, hname] using hnew
        simp [insert, hname, ih hrest]

/-- Of two bindings of one name in a row only the second counts. -/
theorem insert_insert (bindings : Bindings α) (name : String) (first second : α) :
    insert (insert bindings name first) name second = insert bindings name second := by
  induction bindings with
  | nil => simp [insert]
  | cons pair rest ih =>
      obtain ⟨other, old⟩ := pair
      by_cases hname : other = name
      · simp [insert, hname]
      · simp [insert, hname, ih]

/-- Binding a name to the value that it has changes nothing. -/
theorem insert_of_get? {bindings : Bindings α} {name : String} {value : α}
    (hvalue : get? bindings name = some value) : insert bindings name value = bindings := by
  induction bindings with
  | nil => simp at hvalue
  | cons pair rest ih =>
      obtain ⟨other, old⟩ := pair
      rw [get?_cons] at hvalue
      by_cases hname : other = name
      · rw [if_pos hname] at hvalue
        injection hvalue with hold
        simp [insert, hname, hold]
      · rw [if_neg hname] at hvalue
        simp [insert, hname, ih hvalue]

/-- A name that is bound has a place, and binding it again changes what stands there alone. -/
theorem exists_place_of_get? {bindings : Bindings α} {name : String} {value : α}
    (hvalue : get? bindings name = some value) :
    ∃ before after, bindings = before ++ (name, value) :: after ∧ name ∉ names before ∧
      ∀ next, insert bindings name next = before ++ (name, next) :: after := by
  induction bindings with
  | nil => cases hvalue
  | cons pair rest ih =>
      obtain ⟨other, first⟩ := pair
      rw [get?_cons] at hvalue
      by_cases hname : other = name
      · rw [if_pos hname] at hvalue
        cases hvalue
        subst hname
        exact ⟨[], rest, rfl, List.not_mem_nil, fun next => if_pos rfl⟩
      · rw [if_neg hname] at hvalue
        obtain ⟨before, after, rfl, hbefore, hinsert⟩ := ih hvalue
        refine ⟨(other, first) :: before, after, rfl, ?_, ?_⟩
        · exact List.not_mem_cons_of_ne_of_not_mem (Ne.symm hname) hbefore
        · intro next
          rw [insert, if_neg hname, hinsert next]
          rfl

/-- In a table over distinct names, binding one of them changes its entry alone. -/
theorem insert_map_of_mem {names : List String} (hdistinct : names.Nodup) (entry : String → α)
    {name : String} (hmem : name ∈ names) (value : α) :
    insert (names.map fun other => (other, entry other)) name value =
      names.map fun other => (other, if other = name then value else entry other) := by
  induction names with
  | nil => cases hmem
  | cons first rest ih =>
      obtain ⟨hfirst, hrest⟩ := List.nodup_cons.1 hdistinct
      by_cases hname : first = name
      · subst hname
        have hothers : ∀ other ∈ rest, other ≠ first := by
          intro other hother heq
          exact hfirst (heq ▸ hother)
        simp only [List.map_cons, insert, if_true]
        congr 1
        apply List.map_congr_left
        intro other hother
        rw [if_neg (hothers other hother)]
      · have hmem' : name ∈ rest := by
          rcases List.mem_cons.1 hmem with heq | hmem
          · exact absurd heq.symm hname
          · exact hmem
        simp [insert, hname, ih hrest hmem']

theorem nodup_eraseDups (names : List String) : names.eraseDups.Nodup := by
  match names with
  | [] => simp
  | first :: rest =>
      rw [List.eraseDups_cons, List.nodup_cons]
      refine ⟨?_, nodup_eraseDups _⟩
      simp [List.mem_eraseDups]
termination_by names.length
decreasing_by exact Nat.lt_succ_of_le (List.length_filter_le _ _)

/-- The last value that the pairs give to a name. -/
def lastValue? (pairs : List (String × α)) (name : String) : Option α :=
  (pairs.filter fun pair => pair.1 = name).getLast?.map (·.2)

/-- The last pair decides about its own name and about no other. -/
theorem lastValue?_concat (pairs : List (String × α)) (pair : String × α) (name : String) :
    lastValue? (pairs ++ [pair]) name =
      if name = pair.1 then some pair.2 else lastValue? pairs name := by
  by_cases hname : pair.1 = name
  · simp [lastValue?, hname]
  · have hother : name ≠ pair.1 := fun heq => hname heq.symm
    simp [lastValue?, hname, hother]

/-- A name at the end of a list is kept only if it is new. -/
theorem eraseDups_concat (names : List String) (name : String) :
    (names ++ [name]).eraseDups =
      if name ∈ names then names.eraseDups else names.eraseDups ++ [name] := by
  rw [List.eraseDups_append]
  by_cases hmem : name ∈ names
  · simp [List.removeAll, hmem]
  · simp [List.removeAll, hmem, List.eraseDups_cons]

theorem eraseDups_of_nodup {names : List String} (hdistinct : names.Nodup) :
    names.eraseDups = names := by
  induction names using List.reverseRecOn with
  | nil => rfl
  | append_singleton names name ih =>
      obtain ⟨hnames, _, hdisjoint⟩ := List.nodup_append.1 hdistinct
      have hnew : name ∉ names := fun hmem => hdisjoint name hmem name (List.mem_singleton.2 rfl) rfl
      rw [eraseDups_concat, if_neg hnew, ih hnames]

/-- Pairs bound one after another: each name once, where it occurs first, with its last value. -/
theorem ofList_eq_map [Inhabited α] (pairs : List (String × α)) :
    ofList pairs =
      (pairs.map (·.1)).eraseDups.map fun name => (name, (lastValue? pairs name).getD default) := by
  induction pairs using List.reverseRecOn with
  | nil => rfl
  | append_singleton pairs pair ih =>
      have hstep : ofList (pairs ++ [pair]) = insert (ofList pairs) pair.1 pair.2 := by
        simp [ofList]
      rw [hstep, ih, List.map_append, List.map_singleton, eraseDups_concat]
      by_cases hmem : pair.1 ∈ pairs.map (·.1)
      · rw [if_pos hmem, insert_map_of_mem (nodup_eraseDups _) _ (List.mem_eraseDups.2 hmem)]
        apply List.map_congr_left
        intro name _
        rw [lastValue?_concat]
        split <;> rfl
      · rw [if_neg hmem, insert_of_not_contains, List.map_append, List.map_singleton]
        · congr 1
          · apply List.map_congr_left
            intro name hname
            have hother : name ≠ pair.1 := by
              intro heq
              exact hmem (heq ▸ List.mem_eraseDups.1 hname)
            rw [lastValue?_concat, if_neg hother]
          · simp [lastValue?_concat]
        · rw [← Bool.not_eq_true, contains_iff_mem_names]
          simpa [names, List.mem_eraseDups] using hmem

/-- The same names in the same order, with values that are related. -/
def Related {β : Type} (rel : α → β → Prop) (left : Bindings α) (right : Bindings β) : Prop :=
  List.Forall₂ (fun pair pair' => pair.1 = pair'.1 ∧ rel pair.2 pair'.2) left right

namespace Related

variable {β : Type} {rel : α → β → Prop} {left : Bindings α} {right : Bindings β}

/-- Related bindings have the same names in the same order. -/
theorem names_eq (h : Related rel left right) : names left = names right := by
  induction h with
  | nil => rfl
  | cons hpair _ ih => exact congrArg₂ List.cons hpair.1 ih

/-- What a name is bound to on the one side and on the other is related. -/
theorem get? (h : Related rel left right) (name : String) :
    Option.Rel rel (Bindings.get? left name) (Bindings.get? right name) := by
  induction h with
  | nil => exact .none
  | @cons pair pair' rest rest' hpair hrest ih =>
      obtain ⟨first, value⟩ := pair
      obtain ⟨first', value'⟩ := pair'
      obtain ⟨hfirst, hvalue⟩ := hpair
      dsimp only at hfirst hvalue
      subst hfirst
      rw [get?_cons, get?_cons]
      by_cases hname : first = name
      · rw [if_pos hname, if_pos hname]
        exact .some hvalue
      · rw [if_neg hname, if_neg hname]
        exact ih

theorem contains_eq (h : Related rel left right) (name : String) :
    Bindings.contains left name = Bindings.contains right name := by
  have hget := h.get? name
  unfold Bindings.contains
  cases hleft : Bindings.get? left name <;> cases hright : Bindings.get? right name <;>
    rw [hleft, hright] at hget
  · rfl
  · cases hget
  · cases hget
  · rfl

/-- Binding a name to related values keeps tables related. -/
theorem insert (h : Related rel left right) (name : String) {value : α} {value' : β}
    (hvalue : rel value value') :
    Related rel (Bindings.insert left name value) (Bindings.insert right name value') := by
  induction h with
  | nil => exact .cons ⟨rfl, hvalue⟩ .nil
  | @cons pair pair' rest rest' hpair hrest ih =>
      obtain ⟨first, old⟩ := pair
      obtain ⟨first', old'⟩ := pair'
      obtain ⟨hfirst, hold⟩ := hpair
      dsimp only at hfirst hold
      subst hfirst
      unfold Bindings.insert
      by_cases hname : first = name
      · rw [if_pos hname, if_pos hname]
        exact .cons ⟨rfl, hvalue⟩ hrest
      · rw [if_neg hname, if_neg hname]
        exact .cons ⟨rfl, hold⟩ ih

end Related

/-- Bindings are related exactly if their names agree and their values do place by place. -/
theorem related_iff_zip {β : Type} {rel : α → β → Prop} {left : Bindings α} {right : Bindings β} :
    Related rel left right ↔ names left = names right ∧
      ∀ pair pair', (pair, pair') ∈ left.zip right → rel pair.2 pair'.2 := by
  constructor
  · intro h
    exact ⟨h.names_eq, fun _ _ hmem => ((List.forall₂_iff_zip.1 h).2 hmem).2⟩
  · rintro ⟨hnames, hvalues⟩
    induction left generalizing right with
    | nil =>
        cases right with
        | nil => exact .nil
        | cons pair' rest' => cases hnames
    | cons pair rest ih =>
        cases right with
        | nil => cases hnames
        | cons pair' rest' =>
            obtain ⟨hname, hrest⟩ := List.cons.inj hnames
            refine .cons ⟨hname, hvalues _ _ (List.mem_cons_self ..)⟩ (ih hrest ?_)
            intro other other' hmem
            exact hvalues _ _ (List.mem_cons_of_mem _ hmem)

end ComponentTemplates.Bindings
