/-
Module: ComponentTemplates.Proofs.Value.Methods
Purpose: What a method is taken for. To markup, to conditions and to lookups it is the value that it
  returns; to a loop it is one item, the method itself, if that value counts as given. So a loop over a
  method and one over what it returns agree only where the latter is one item, too
  (`Value.readsAs_items_method`).
Main exports: Value.ReadsAs, Value.PartOf, Value.wellFounded_partOf, Value.mayFind_lookup,
  Value.lookup_ne_self, Value.isOneItem, Value.readsAs_items_method
-/
import ComponentTemplates.Proofs.Bindings
import ComponentTemplates.Proofs.Execution.Basic
import ComponentTemplates.Proofs.Scope.Root
import Mathlib.Order.WellFounded

namespace ComponentTemplates.Value

/-! ## Values that read alike -/

/-- Markup, conditions and lookups take one value for the other. -/
structure ReadsAs (value other : Value) : Prop where
  toHtml : value.toHtml = other.toHtml
  hasValue : value.hasValue = other.hasValue
  lookup : ∀ step, value.lookup step = other.lookup step

namespace ReadsAs

variable {value other third : Value}

theorem refl (value : Value) : value.ReadsAs value :=
  ⟨rfl, rfl, fun _ => rfl⟩

theorem symm (h : value.ReadsAs other) : other.ReadsAs value :=
  ⟨h.toHtml.symm, h.hasValue.symm, fun step => (h.lookup step).symm⟩

theorem trans (h : value.ReadsAs other) (hother : other.ReadsAs third) : value.ReadsAs third :=
  ⟨h.toHtml.trans hother.toHtml, h.hasValue.trans hother.hasValue,
    fun step => (h.lookup step).trans (hother.lookup step)⟩

theorem forall₂_singleton_iff (h : value.ReadsAs other) {items : List Value} :
    List.Forall₂ ReadsAs [value] items ↔ List.Forall₂ ReadsAs [other] items := by
  constructor
  · rintro (_ | ⟨hitem, hrest⟩)
    exact .cons (h.symm.trans hitem) hrest
  · rintro (_ | ⟨hitem, hrest⟩)
    exact .cons (h.trans hitem) hrest

end ReadsAs

/-- A property with one part reads as the part. -/
theorem readsAs_wrapper (name : String) (part : Value) : (Value.field name [part]).ReadsAs part where
  toHtml := by simp [toHtml, partsHtml]
  hasValue := by simp [hasValue, anyHasValue]
  lookup _ := rfl

/-- A value reads as what it wraps. -/
theorem readsAs_unwrapped (value : Value) : value.ReadsAs value.unwrapped := by
  fun_induction unwrapped value with
  | case1 name part ih => exact (readsAs_wrapper name part).trans ih
  | case2 value hsingle => exact .refl value

/-- A method reads as what it returns. -/
theorem readsAs_method (identity : Nat) (call : List String → Value) :
    (Value.method identity call).ReadsAs (call []) :=
  ⟨rfl, rfl, fun _ => rfl⟩

/-- No value is a wrapper once it is unwrapped. -/
theorem unwrapped_ne_wrapper (value : Value) (name : String) (part : Value) :
    value.unwrapped ≠ .field name [part] := by
  fun_induction unwrapped value with
  | case1 wrapper inner ih => exact ih
  | case2 value hsingle => exact hsingle name part

theorem items_unwrapped (value : Value) : value.unwrapped.items = value.items := by
  fun_induction unwrapped value with
  | case1 name part ih => exact ih
  | case2 value hsingle => rfl

/-- Behind its wrappers, a loop tells lists and properties from what it takes for one item. -/
theorem items_eq (value : Value) :
    value.items =
      match value.unwrapped with
      | .list items => items
      | .field _ _ => []
      | other => if value.hasValue then [other] else [] := by
  have hwrapper := unwrapped_ne_wrapper value
  rw [← items_unwrapped, (readsAs_unwrapped value).hasValue]
  cases hvalue : value.unwrapped with
  | field name parts =>
      match parts with
      | [] => rfl
      | [part] => exact absurd hvalue (hwrapper name part)
      | _ :: _ :: _ => rfl
  | _ => rfl

/-! ## A value is not found in itself -/

/-- What a value is made of: the parts of a property, fields and items, and whatever a method answers. -/
inductive PartOf : Value → Value → Prop where
  | part (name : String) {parts : List Value} {value : Value} (h : value ∈ parts) :
      PartOf value (.field name parts)
  | field (name : String) {fields : List (String × Value)} {value : Value}
      (h : (name, value) ∈ fields) : PartOf value (.record fields)
  | item {items : List Value} {value : Value} (h : value ∈ items) : PartOf value (.list items)
  | answer (identity : Nat) (call : List String → Value) (args : List String) :
      PartOf (call args) (.method identity call)

mutual

/-- Whatever a value is made of, there is an end to it. -/
theorem acc_partOf (value : Value) : Acc PartOf value := by
  refine ⟨value, fun inner h => ?_⟩
  cases value with
  | field name parts =>
      cases h with
      | part _ hmem => exact acc_partOf_of_mem parts inner hmem
  | record fields =>
      cases h with
      | field name hmem => exact acc_partOf_of_field fields name inner hmem
  | list items =>
      cases h with
      | item hmem => exact acc_partOf_of_mem items inner hmem
  | method identity call =>
      cases h with
      | answer _ _ args => exact acc_partOf (call args)
  | _ => cases h
termination_by structural value

theorem acc_partOf_of_mem (values : List Value) : ∀ value ∈ values, Acc PartOf value := by
  cases values with
  | nil => exact fun _ h => absurd h List.not_mem_nil
  | cons first rest =>
      exact List.forall_mem_cons.2 ⟨acc_partOf first, acc_partOf_of_mem rest⟩
termination_by structural values

theorem acc_partOf_of_field (fields : List (String × Value)) :
    ∀ name value, (name, value) ∈ fields → Acc PartOf value := by
  cases fields with
  | nil => exact fun _ _ h => absurd h List.not_mem_nil
  | cons first rest =>
      obtain ⟨name, value⟩ := first
      intro other inner h
      rcases List.mem_cons.1 h with heq | hrest
      · cases heq
        exact acc_partOf value
      · exact acc_partOf_of_field rest other inner hrest
termination_by structural fields

end

/-- Parts of parts come to an end, in methods too. -/
theorem wellFounded_partOf : WellFounded PartOf :=
  ⟨acc_partOf⟩

/-- Within a value, at any depth. -/
abbrev Within : Value → Value → Prop :=
  Relation.TransGen PartOf

/-- No value is found inside itself. -/
theorem not_within_self (value : Value) : ¬Within value value :=
  wellFounded_partOf.transGen.irrefl.irrefl value

theorem reflTransGen_unwrapped (value : Value) : Relation.ReflTransGen PartOf value.unwrapped value := by
  fun_induction unwrapped value with
  | case1 name part ih => exact ih.tail (.part name (List.mem_singleton_self part))
  | case2 value hsingle => exact .refl

/-- What a loop runs over stands in the value, or is the value. -/
theorem reflTransGen_of_mem_items {value item : Value} (h : item ∈ value.items) :
    Relation.ReflTransGen PartOf item value := by
  have hunwrapped := reflTransGen_unwrapped value
  rw [items_eq] at h
  split at h
  · rename_i items hlist
    rw [hlist] at hunwrapped
    exact hunwrapped.head (.item h)
  · cases h
  · split at h
    · rwa [List.mem_singleton.1 h]
    · cases h

/-- What a lookup in the value may find: what stands in it, nothing, or, unless the value is a text, a text
that tells a number of items. -/
def MayFind (value found : Value) : Prop :=
  Within found value ∨ found = .null ∨
    (∃ content, found = .text content) ∧ ∀ content, value ≠ .text content

/-- What may be found in a part may be found in the whole. -/
theorem MayFind.of_partOf {part value found : Value} (hpart : PartOf part value)
    (h : part.MayFind found) : value.MayFind found := by
  have hvalue : ∀ content, value ≠ .text content := by
    rintro content rfl
    cases hpart
  rcases h with hwithin | hnull | ⟨htext, -⟩
  · exact .inl (hwithin.tail hpart)
  · exact .inr (.inl hnull)
  · exact .inr (.inr ⟨htext, hvalue⟩)

theorem mayFind_lookupField (fields : List (String × Value)) (step : Lookup.Step) :
    (Value.record fields).MayFind (lookupField fields step) := by
  unfold lookupField
  split
  · rename_i identity call hfield
    have hmethod : PartOf (.method identity call) (.record fields) :=
      .field step.name (Bindings.mem_of_get? hfield)
    exact .inl (.head (.answer identity call step.args) (.single hmethod))
  · rename_i value _ hfield
    exact .inl (.single (.field step.name (Bindings.mem_of_get? hfield)))
  · exact .inr (.inl rfl)

theorem mayFind_lookupItem (items : List Value) (step : Lookup.Step) :
    (Value.list items).MayFind (lookupItem items step) := by
  have hend : ∀ found : Option Value, (∀ item ∈ found, item ∈ items) →
      (Value.list items).MayFind (found.getD .null) := by
    intro found hfound
    cases found with
    | none => exact .inr (.inl rfl)
    | some item => exact .inl (.single (.item (hfound item rfl)))
  unfold lookupItem
  split
  · exact .inr (.inr ⟨⟨_, rfl⟩, nofun⟩)
  · split
    · exact hend _ fun _ => List.mem_of_head?
    · split
      · exact hend _ fun _ => List.mem_of_getLast?
      · exact .inr (.inl rfl)

/-- A lookup finds what stands in the value, nothing or a number of items. -/
theorem mayFind_lookup (value : Value) (step : Lookup.Step) :
    value.MayFind (value.lookup step) := by
  cases value with
  | record fields => exact mayFind_lookupField fields step
  | list items => exact mayFind_lookupItem items step
  | field name parts =>
      match parts with
      | [] => exact .inr (.inl rfl)
      | [part] =>
          have hpart : PartOf part (.field name [part]) := .part name (List.mem_singleton_self part)
          exact .of_partOf hpart (mayFind_lookup part step)
      | _ :: _ :: _ => exact .inr (.inl rfl)
  | method identity call =>
      exact .of_partOf (.answer identity call []) (mayFind_lookup (call []) step)
  | _ => exact .inr (.inl rfl)
termination_by structural value

/-- No value that counts as given answers with itself. -/
theorem lookup_ne_self {value : Value} (hvalue : value.hasValue = true) (step : Lookup.Step) :
    value.lookup step ≠ value := by
  intro hself
  rcases mayFind_lookup value step with hwithin | hnull | ⟨⟨content, hcontent⟩, htext⟩
  · rw [hself] at hwithin
    exact not_within_self value hwithin
  · rw [hself] at hnull
    rw [hnull] at hvalue
    cases hvalue
  · exact htext content (hself.symm.trans hcontent)

/-! ## Loops over methods -/

/-- A loop takes the value for one item, provided that it counts as given. -/
def isOneItem (value : Value) : Bool :=
  match value.unwrapped with
  | .list _ | .field _ _ => false
  | _ => true

/-- A loop over what does not count as given is over at once. -/
theorem items_of_not_hasValue {value : Value} (h : value.hasValue = false) : value.items = [] := by
  have hunwrapped := (readsAs_unwrapped value).hasValue
  rw [items_eq, h]
  rw [h] at hunwrapped
  cases hvalue : value.unwrapped with
  | list items =>
      rw [hvalue] at hunwrapped
      simpa [hasValue] using hunwrapped
  | _ => rfl

/-- A list of one item does not read as its item: that would have to be its own first item. -/
theorem not_readsAs_item {item : Value} : ¬(Value.list [item]).ReadsAs item := by
  intro h
  have hvalue : item.hasValue = true := h.hasValue.symm
  have hfirst : item.lookup { name := "First" } = item := (h.lookup { name := "First" }).symm
  exact lookup_ne_self hvalue _ hfirst

/-- What counts as given reads as the items of a loop over it just if the loop takes it for one item. -/
theorem readsAs_items_iff {value : Value} (h : value.hasValue = true) :
    List.Forall₂ ReadsAs [value] value.items ↔ value.isOneItem = true := by
  have hunwrapped := readsAs_unwrapped value
  rw [items_eq, isOneItem, h]
  cases hvalue : value.unwrapped with
  | list items =>
      rw [hvalue] at hunwrapped
      refine iff_of_false ?_ Bool.false_ne_true
      rintro (_ | ⟨hitem, _ | _⟩)
      exact not_readsAs_item (hunwrapped.symm.trans hitem)
  | field name parts => exact iff_of_false nofun Bool.false_ne_true
  | _ =>
      rw [hvalue] at hunwrapped
      exact iff_of_true (.cons hunwrapped .nil) rfl

section Methods

variable {value : Value} {identity : Nat} {call : List String → Value}

/-- A loop takes a method for one item if what it returns counts as given. -/
theorem items_of_unwrapped_method (h : value.unwrapped = .method identity call) :
    value.items = if (call []).hasValue then [.method identity call] else [] := by
  rw [← items_unwrapped, h]
  rfl

/-- No loop over what a method returns comes upon the method. -/
theorem method_not_mem_items : Value.method identity call ∉ (call []).items := by
  intro hmem
  have hself : Within (.method identity call) (.method identity call) :=
    .tail' (reflTransGen_of_mem_items hmem) (.answer identity call [])
  exact not_within_self _ hself

/-- **Methods stand for what they return**, bare or wrapped, to markup, conditions and lookups, but not to
loops. A loop over a method has one iteration, with the method as its item, if what the method returns
counts as given, and else none. So its items are those of what the method returns only where there are
none; and they read as those do just if what the method returns is one item to a loop, too, and no list or
property of several parts that counts as given. -/
theorem readsAs_items_method (h : value.unwrapped = .method identity call) :
    let result := call []
    value.ReadsAs result ∧
      value.items = (if result.hasValue then [.method identity call] else []) ∧
      (value.items = result.items ↔ result.hasValue = false) ∧
      (List.Forall₂ ReadsAs value.items result.items ↔
        (result.hasValue = true → result.isOneItem = true)) ∧
      ∀ host machine subject body, machine.eval subject = value →
        execute host (.loop subject body) machine =
          if result.hasValue then
            (executeAll host body
              { machine with scope := machine.scope.pushItem (.method identity call) 0 1 }).popScope
          else machine.done := by
  intro result
  have hmethod : (Value.method identity call).ReadsAs result := readsAs_method identity call
  have hreads : value.ReadsAs result := by
    refine (readsAs_unwrapped value).trans ?_
    rwa [h]
  have hitems : value.items = if result.hasValue then [.method identity call] else [] :=
    items_of_unwrapped_method h
  refine ⟨hreads, hitems, ?same, ?alike, ?loop⟩
  case same =>
    cases hvalue : result.hasValue with
    | false =>
        rw [hitems, hvalue, items_of_not_hasValue hvalue]
        exact iff_of_true rfl rfl
    | true =>
        rw [hitems, hvalue]
        refine iff_of_false (fun heq => ?_) nofun
        have hmem : Value.method identity call ∈ result.items := heq ▸ List.mem_singleton_self _
        exact method_not_mem_items hmem
  case alike =>
    cases hvalue : result.hasValue with
    | false =>
        rw [hitems, hvalue, items_of_not_hasValue hvalue]
        exact iff_of_true .nil nofun
    | true =>
        rw [hitems, hvalue, if_pos rfl, hmethod.forall₂_singleton_iff, readsAs_items_iff hvalue]
        exact ⟨fun hone _ => hone, fun hone => hone rfl⟩
  case loop =>
    intro host machine subject body heval
    rw [execute_loop, heval, hitems]
    split
    · exact Outcome.andThen_done _
    · rfl

end Methods

/-- A wrapped method that returns a method that returns a record: a loop over it has one item, which is not
the item of a loop over the inner method but reads as that does. -/
theorem readsAs_items_method_card :
    let card := Value.record [("Title", .text "x")]
    let inner := Value.method 1 fun _ => card
    let outer := Value.method 0 fun _ => inner
    let value := Value.field "card" [outer]
    value.unwrapped = outer ∧ value.ReadsAs inner ∧ value.items = [outer] ∧
      value.items ≠ inner.items ∧ List.Forall₂ ReadsAs value.items inner.items := by
  intro card inner outer value
  have hunwrapped : value.unwrapped = .method 0 fun _ => inner := rfl
  obtain ⟨hreads, hitems, hsame, halike, -⟩ := readsAs_items_method hunwrapped
  exact ⟨hunwrapped, hreads, hitems, fun heq => absurd (hsame.1 heq) nofun, halike.2 fun _ => rfl⟩

/-- A method that returns a list of two: it has two items to whoever asks for their number, and a loop
over it has one iteration. -/
theorem items_method_list :
    let rows := Value.list [.text "a", .text "b"]
    let method := Value.method 0 fun _ => rows
    let first : Lookup.Step := { name := "First" }
    let page := fun value => runProgram (fun _ => .ok .null) (.ofRoot (.record [("Rows", .list [value])]))
      [.append .page (.value { steps := [{ name := "Rows" }, first, { name := "Count" }] }),
        .loop { steps := [{ name := "Rows" }, first] } [.append .page (.literal "x")]]
    rows.items.length = 2 ∧ method.items.length = 1 ∧ page rows = .ok "2xx" ∧ page method = .ok "2x" :=
  ⟨rfl, rfl, rfl, rfl⟩

end ComponentTemplates.Value
